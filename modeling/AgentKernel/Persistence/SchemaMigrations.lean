import Mathlib.Data.List.Sort
import AgentKernel.Lib.Run
import AgentKernel.Lib.Transaction
import AgentKernel.Contracts

/-! Schema migrations on one SQLite database.

A migration is a script and a row of `schema_migrations`. `executescript` commits what is pending
and then runs its statements outside any transaction of the module's; the row comes after it, in a
transaction of its own. A call may be struck before any of these steps. -/
namespace AgentKernel.Persistence.Migrations
open Lib

/-! ### Statements -/

/-- The tables that migrations are about, and the rows of `schema_migrations` in the order of their
insertion. -/
structure Database (δ : Type) where
  data : δ
  recorded : List (Int × String) := []
  deriving DecidableEq

/-- A statement of a script. -/
inductive Statement (δ : Type) where
  | run (f : δ → Except PyError δ)
  | begin
  | commit
  | rollback

structure Migration (δ : Type) where
  version : Int
  description : String
  sql : List (Statement δ)

def operational (message : String) : PyError := ⟨.operationalError, message⟩

section
variable {δ : Type}

/-- Something done on the connection, with no fault of its own. -/
abbrev Step (δ : Type) := Call PyError (Conn (Database δ)) Unit

def Statement.exec : Statement δ → Step δ
  | .run f => Conn.statementCall (fun db =>
      (f db.data).map (fun d => ((), { db with data := d })))
  | .begin => Conn.openCall (operational "cannot start a transaction within a transaction")
  | .commit => Conn.commitCall (operational "cannot commit - no transaction is active")
  | .rollback => Conn.rollback (operational "cannot rollback - no transaction is active")

/-- `connection.commit()`, which does nothing when no transaction is open. -/
def commitPending : Step δ := fun c =>
  match c.working with
  | some db => .ok () { c with committed := db, working := none }
  | none => .ok () c

/-- The transaction that `execute` opens before an `INSERT`, unless one is open. -/
def beginImplicit : Step δ := fun c => .ok () { c with working := some c.view }

def Migration.row (m : Migration δ) : Int × String := (m.version, m.description)

/-- `INSERT INTO schema_migrations`. -/
def insertRow (m : Migration δ) : Step δ := Conn.statementCall (fun db =>
  if m.version ∈ db.recorded.map Prod.fst then
    .error ⟨.integrityError, "UNIQUE constraint failed: schema_migrations.version"⟩
  else .ok ((), { db with recorded := db.recorded ++ [m.row] }))

/-- `executescript`: commit what is pending, then the statements. -/
def Migration.script (m : Migration δ) : List (Step δ) := commitPending :: m.sql.map Statement.exec

/-- What `_apply` does: the script, the row, and the commit at the end of the `with` block. -/
def Migration.steps (m : Migration δ) : List (Step δ) :=
  m.script ++ [beginImplicit, insertRow m, commitPending]

/-! ### Calls that end early -/

/-- How a call ends early: by an exception, or with its process. -/
inductive Halt where
  | raised (e : PyError)
  | stopped
  deriving DecidableEq

/-- One call of `apply_all`, and where it is struck: before the migrations, or when it is about to
take a step of one of them. -/
structure Attempt where
  halt : Halt := .stopped
  early : Bool := false
  strike : Option (Int × Nat) := none

/-- A call that nothing strikes. -/
def Attempt.clean : Attempt := {}

def Attempt.strikeAt (a : Attempt) (m : Migration δ) : Option Nat :=
  match a.strike with
  | some (version, k) => if version = m.version then some k else none
  | none => none

/-- The steps one after the other, up to the one that is struck. -/
def runSteps (halt : Halt) : Option Nat → List (Step δ) → Call Halt (Conn (Database δ)) Unit
  | _, [] => pure ()
  | some 0, _ :: _ => throw halt
  | strike, step :: rest => fun c =>
    match step c with
    | .ok _ c' => runSteps halt (strike.map (· - 1)) rest c'
    | .error e c' => .error (.raised e) c'

/-- `_apply`: an exception rolls back what is open; a process that stops does nothing more. -/
def applyMigration (a : Attempt) (m : Migration δ) : Call Halt (Conn (Database δ)) Unit :=
  tryCatch (runSteps a.halt (a.strikeAt m) m.steps) (fun h =>
    match h with
    | .raised e => fun c => .error (.raised e) { c with working := none }
    | .stopped => throw .stopped)

/-- `_ensure_migrations_table`; a table that is absent holds no rows. -/
def ensureMigrationsTable (a : Attempt) : Call Halt (Conn (Database δ)) Unit := fun c =>
  if a.early then .error a.halt c
  else
    match commitPending c with
    | .ok _ c' => .ok () c'
    | .error e c' => .error (.raised e) c'

/-- `_applied_versions`. -/
def appliedVersions : Call Halt (Conn (Database δ)) (List Int) := fun c =>
  .ok (c.view.recorded.map Prod.fst) c

def applyPending (a : Attempt) : List (Migration δ) → Call Halt (Conn (Database δ)) Unit
  | [] => pure ()
  | m :: rest => do
    applyMigration a m
    applyPending a rest

/-! ### The manager -/

/-- The migrations of a manager, in the order of their versions. -/
structure SchemaMigrationManager (δ : Type) where
  migrations : List (Migration δ)
  ascending : migrations.Pairwise (fun m m' => m.version < m'.version)

/-- The first version that was seen before. -/
def duplicateVersion : List Int → List (Migration δ) → Option Int
  | _, [] => none
  | seen, m :: rest => if m.version ∈ seen then some m.version else duplicateVersion (m.version :: seen) rest

theorem nodup_of_duplicateVersion {seen : List Int} {ms : List (Migration δ)}
    (h : duplicateVersion seen ms = none) :
    (∀ m ∈ ms, m.version ∉ seen) ∧ ms.Pairwise (fun m m' => m.version ≠ m'.version) := by
  induction ms generalizing seen with
  | nil =>
    refine ⟨?_, .nil⟩
    intro m hm
    cases hm
  | cons m rest ih =>
    rw [duplicateVersion] at h
    split at h
    · cases h
    · rename_i hm
      obtain ⟨hseen, hrest⟩ := ih h
      refine ⟨?_, List.pairwise_cons.mpr ⟨?_, hrest⟩⟩
      · intro m' hm'
        rcases List.mem_cons.mp hm' with rfl | hm'
        · exact hm
        · exact fun hin => hseen m' hm' (List.mem_cons_of_mem _ hin)
      · intro m' hm' heq
        refine hseen m' hm' ?_
        rw [← heq]
        exact List.mem_cons_self

/-- By version; migrations of one version stay in their order. -/
def sortedByVersion (ms : List (Migration δ)) : List (Migration δ) :=
  ms.insertionSort (fun m m' => m.version ≤ m'.version)

theorem sortedByVersion_ascending {ms : List (Migration δ)}
    (h : duplicateVersion [] (sortedByVersion ms) = none) :
    (sortedByVersion ms).Pairwise (fun m m' => m.version < m'.version) := by
  have htotal : Std.Total (fun m m' : Migration δ => m.version ≤ m'.version) :=
    ⟨fun m m' => le_total m.version m'.version⟩
  have htrans : IsTrans (Migration δ) (fun m m' => m.version ≤ m'.version) :=
    ⟨fun _ _ _ h h' => le_trans h h'⟩
  have hsorted := List.pairwise_insertionSort (fun m m' : Migration δ => m.version ≤ m'.version) ms
  exact hsorted.imp₂ (fun _ _ hle hne => lt_of_le_of_ne hle hne) (nodup_of_duplicateVersion h).2

/-- `__init__`, with the migrations built in. -/
def SchemaMigrationManager.init (builtIn extra : List (Migration δ)) :
    Except PyError (SchemaMigrationManager δ) :=
  match h : duplicateVersion [] (sortedByVersion (builtIn ++ extra)) with
  | some version =>
    .error ⟨.valueError, "Duplicate migration version " ++ toString version ++ " detected."⟩
  | none => .ok ⟨sortedByVersion (builtIn ++ extra), sortedByVersion_ascending h⟩

namespace SchemaMigrationManager
variable (M : SchemaMigrationManager δ)

/-- Those not recorded; they are in order, so `sorted` changes nothing. -/
def pending (applied : List Int) : List (Migration δ) :=
  M.migrations.filter (fun m => m.version ∉ applied)

/-- `apply_all`. -/
def applyAll (a : Attempt) : Call Halt (Conn (Database δ)) Nat := do
  ensureMigrationsTable a
  let applied ← appliedVersions
  applyPending a (M.pending applied)
  return (M.pending applied).length

/-- What the call leaves of a database that it finds without an open transaction. -/
def after (db : Database δ) (a : Attempt) : Database δ :=
  ((M.applyAll a).after (Conn.idle db [])).committed

end SchemaMigrationManager

end

/-! ### The migrations built in -/

/-- The columns of each table, and the indexes. -/
structure Schema where
  tables : List (String × List String) := []
  indexes : List String := []
  deriving DecidableEq

/-- `CREATE TABLE IF NOT EXISTS`. -/
def createTable (name : String) (columns : List String) : Statement Schema := .run (fun s =>
  if name ∈ s.tables.map Prod.fst then .ok s
  else .ok { s with tables := s.tables ++ [(name, columns)] })

/-- `CREATE INDEX IF NOT EXISTS`. -/
def createIndex (name table : String) : Statement Schema := .run (fun s =>
  if name ∈ s.indexes then .ok s
  else if table ∈ s.tables.map Prod.fst then .ok { s with indexes := s.indexes ++ [name] }
  else .error (operational ("no such table: main." ++ table)))

/-- `ALTER TABLE … ADD COLUMN`. -/
def addColumn (table column : String) : Statement Schema := .run (fun s =>
  match s.tables.lookup table with
  | none => .error (operational ("no such table: " ++ table))
  | some columns =>
    if column ∈ columns then .error (operational ("duplicate column name: " ++ column))
    else .ok { s with
      tables := s.tables.map (fun t => if t.1 = table then (t.1, t.2 ++ [column]) else t) })

/-- `KERNEL_MIGRATIONS`. -/
def kernelMigrations : List (Migration Schema) :=
  [{ version := 1
     description := "Initial schema: runtime_events, turn_intents,dedupe_store, recovery_outcomes"
     sql :=
       [createTable "runtime_events"
          ["id", "run_id", "commit_offset", "event_type", "payload_json", "occurred_at"],
        createIndex "idx_runtime_events_run_id" "runtime_events",
        createTable "turn_intents" ["id", "run_id", "turn_offset", "intent_json", "recorded_at"],
        createIndex "idx_turn_intents_run_id" "turn_intents",
        createTable "dedupe_store" ["idempotency_key", "state", "updated_at"],
        createTable "recovery_outcomes"
          ["id", "run_id", "action_id", "recovery_mode", "reason", "recorded_at"],
        createIndex "idx_recovery_outcomes_run_id" "recovery_outcomes"] },
   { version := 2
     description := "Add schema_version column to runtime_events for snapshotversioning"
     sql := [addColumn "runtime_events" "schema_version"] }]

end AgentKernel.Persistence.Migrations
