import AgentKernel.Lib.Run
import AgentKernel.Persistence.ProjectionCache
import AgentKernel.Workflow.Facts
import Mathlib.Data.List.MinMax
import Mathlib.Data.Prod.Lex
import Mathlib.Data.String.Basic

/-! The stores of recovery outcomes.

The store in memory answers with the outcome of a run that was written last. The two databases
answer with the one that carries the latest `written_at`, and only among equal ones with the last.
So they agree with it on a run exactly when no earlier outcome of the run carries a later time
(`latest_outcome_iff`), whatever statements fail: a write that raised is in none of them. -/
namespace AgentKernel.Persistence
open Lib Workflow

/-! ### The store in memory -/

structure InMemoryRecoveryOutcomeStore where
  outcomesByRun : Dict String (List RecoveryOutcome) := Dict.empty

namespace InMemoryRecoveryOutcomeStore

def writeOutcome (s : InMemoryRecoveryOutcomeStore) (outcome : RecoveryOutcome) :
    InMemoryRecoveryOutcomeStore :=
  { outcomesByRun :=
      s.outcomesByRun.set outcome.runId ((s.outcomesByRun.get? outcome.runId).getD [] ++ [outcome]) }

def latestForRun (s : InMemoryRecoveryOutcomeStore) (runId : String) : Option RecoveryOutcome :=
  ((s.outcomesByRun.get? runId).getD []).getLast?

theorem outcomes_run (outcomes : List RecoveryOutcome) (runId : String) :
    ((run writeOutcome {} outcomes).outcomesByRun.get? runId).getD [] =
      outcomes.filter (fun o => o.runId = runId) := by
  induction outcomes using List.reverseRecOn with
  | nil => rfl
  | append_singleton outcomes outcome ih =>
    rw [run_append, List.filter_append, ← ih]
    show ((Dict.set _ _ _).get? runId).getD [] = _
    rw [Dict.get?_set]
    by_cases h : runId = outcome.runId
    · subst h
      simp
    · simp [h, Ne.symm h]

end InMemoryRecoveryOutcomeStore

/-! ### The tables -/

structure OutcomeRow where
  id : Nat
  runId : String
  actionId : Option String
  recoveryMode : RecoveryMode
  outcomeState : String
  writtenAt : String
  operatorEscalationRef : Option String
  emittedEventIdsJson : String

/-- `recovery_outcome`, with the last id it gave. -/
structure OutcomeTable where
  rows : List OutcomeRow := []
  lastId : Nat := 0

namespace OutcomeTable

/-- The values of the `INSERT`. -/
def rowOf (id : Nat) (outcome : RecoveryOutcome) : OutcomeRow where
  id := id
  runId := outcome.runId
  actionId := outcome.actionId
  recoveryMode := outcome.recoveryMode
  outcomeState := outcome.outcomeState
  writtenAt := outcome.writtenAt
  operatorEscalationRef := outcome.operatorEscalationRef
  emittedEventIdsJson := JsonText.text (.list (outcome.emittedEventIds.map .str))

def insert (t : OutcomeTable) (outcome : RecoveryOutcome) : OutcomeTable where
  rows := t.rows ++ [rowOf (t.lastId + 1) outcome]
  lastId := t.lastId + 1

section
variable (floatOf : List Char → String)

/-- `_deserialize_ids`: what is no list of strings is read as far as it is one. -/
def deserializeIds (payload : String) : List String :=
  match JsonText.loads floatOf payload with
  | some (.list entries) => entries.filterMap Value.str?
  | _ => []

def outcomeOf (row : OutcomeRow) : RecoveryOutcome where
  runId := row.runId
  actionId := row.actionId
  recoveryMode := row.recoveryMode
  outcomeState := row.outcomeState
  writtenAt := row.writtenAt
  operatorEscalationRef := row.operatorEscalationRef
  emittedEventIds := deserializeIds floatOf row.emittedEventIdsJson

variable {κ : Type} [LinearOrder κ] (collation : String → κ)

/-- `ORDER BY written_at DESC, id DESC`. -/
def rank (row : OutcomeRow) : κ ×ₗ Nat := toLex (collation row.writtenAt, row.id)

/-- `LIMIT 1`. -/
def latestForRun (t : OutcomeTable) (runId : String) : Option RecoveryOutcome :=
  ((t.rows.filter (fun row => row.runId = runId)).argmax (rank collation)).map (outcomeOf floatOf)

end

/-- **An outcome is read back from its row as it was.** -/
theorem outcomeOf_rowOf (floatOf : List Char → String) (id : Nat) (outcome : RecoveryOutcome) :
    outcomeOf floatOf (rowOf id outcome) = outcome := by
  have hids : deserializeIds floatOf (rowOf id outcome).emittedEventIdsJson = outcome.emittedEventIds := by
    have hloads := JsonText.loads_text floatOf (v := .list _) (plain_texts outcome.emittedEventIds)
    simp only [deserializeIds, rowOf, hloads, List.filterMap_map]
    exact List.filterMap_some
  rw [outcomeOf, hids]
  rfl

/-- The table holds these outcomes, in the order of their ids. -/
structure Stored (floatOf : List Char → String) (t : OutcomeTable) (outcomes : List RecoveryOutcome) :
    Prop where
  outcomes : t.rows.map (outcomeOf floatOf) = outcomes
  ordered : t.rows.Pairwise (fun a b => a.id < b.id)
  bounded : ∀ row ∈ t.rows, row.id ≤ t.lastId

theorem stored_empty (floatOf : List Char → String) : Stored floatOf {} [] :=
  ⟨rfl, List.Pairwise.nil, fun _ h => nomatch h⟩

theorem Stored.insert {floatOf : List Char → String} {t : OutcomeTable} {outcomes : List RecoveryOutcome}
    (h : Stored floatOf t outcomes) (outcome : RecoveryOutcome) :
    Stored floatOf (t.insert outcome) (outcomes ++ [outcome]) where
  outcomes := by
    rw [OutcomeTable.insert, List.map_append, h.outcomes, List.map_singleton, outcomeOf_rowOf]
  ordered := by
    rw [OutcomeTable.insert, List.pairwise_append]
    refine ⟨h.ordered, List.pairwise_singleton _ _, fun a ha b hb => ?_⟩
    rw [List.mem_singleton.mp hb]
    exact Nat.lt_succ_of_le (h.bounded a ha)
  bounded := by
    intro row hrow
    rcases List.mem_append.mp hrow with hrow | hrow
    · exact Nat.le_succ_of_le (h.bounded row hrow)
    · rw [List.mem_singleton.mp hrow]
      exact Nat.le_refl _

/-! ### Which outcome is the latest -/

section
variable {κ : Type} [LinearOrder κ] (collation : String → κ) (floatOf : List Char → String)

/-- The last outcome of the run carries a time no earlier one of the run is after. -/
def Newest (outcomes : List RecoveryOutcome) (runId : String) : Prop :=
  ∀ last, (outcomes.filter (fun o => o.runId = runId)).getLast? = some last →
    ∀ o ∈ outcomes.filter (fun o => o.runId = runId), collation o.writtenAt ≤ collation last.writtenAt

/-- The row of the highest rank is the last one exactly when none carries a later time. -/
theorem argmax_last_iff {rows : List OutcomeRow} (hordered : rows.Pairwise (fun a b => a.id < b.id)) :
    (rows.argmax (rank collation)).map (outcomeOf floatOf) = (rows.map (outcomeOf floatOf)).getLast? ↔
      ∀ last, (rows.map (outcomeOf floatOf)).getLast? = some last →
        ∀ o ∈ rows.map (outcomeOf floatOf), collation o.writtenAt ≤ collation last.writtenAt := by
  rcases List.eq_nil_or_concat rows with rfl | ⟨before, last, rfl⟩
  · simp
  rw [List.concat_eq_append] at hordered ⊢
  have hlater : ∀ row ∈ before, row.id < last.id := by
    intro row hrow
    exact (List.pairwise_append.mp hordered).2.2 row hrow last List.mem_cons_self
  rw [List.map_append, List.map_singleton, List.getLast?_append_of_ne_nil _ (List.cons_ne_nil _ _)]
  simp only [List.getLast?_singleton, Option.some.injEq, forall_eq']
  constructor
  · intro h o ho
    obtain ⟨best, hbest, houtcome⟩ := Option.map_eq_some_iff.mp h
    rw [← List.map_singleton, ← List.map_append] at ho
    obtain ⟨row, hrow, rfl⟩ := List.mem_map.mp ho
    have hle := List.le_of_mem_argmax hrow hbest
    rw [rank, rank, Prod.Lex.toLex_le_toLex] at hle
    have hfirst : collation row.writtenAt ≤ collation best.writtenAt := by
      rcases hle with hlt | ⟨heq, -⟩
      · exact le_of_lt hlt
      · exact le_of_eq heq
    rw [← houtcome]
    exact hfirst
  · intro h
    have hbest : ∃ best, (before ++ [last]).argmax (rank collation) = some best := by
      refine Option.ne_none_iff_exists'.mp (fun hnone => ?_)
      rw [List.argmax_eq_none] at hnone
      simp at hnone
    obtain ⟨best, hbest⟩ := hbest
    have hle := List.le_of_mem_argmax (List.mem_append_right before List.mem_cons_self) hbest
    rcases List.mem_append.mp (List.argmax_mem hbest) with hmem | hmem
    · -- An earlier row of the highest rank would carry a later time.
      have hnot := h (outcomeOf floatOf best) (List.mem_append_left _ (List.mem_map_of_mem hmem))
      rw [rank, rank, Prod.Lex.toLex_le_toLex] at hle
      rcases hle with hlt | ⟨-, hid⟩
      · exact absurd hnot (not_le_of_gt hlt)
      · exact absurd hid (Nat.not_le_of_gt (hlater best hmem))
    · rw [hbest, List.mem_singleton.mp hmem]
      rfl

theorem latestForRun_iff {t : OutcomeTable} {outcomes : List RecoveryOutcome}
    (h : Stored floatOf t outcomes) (runId : String) :
    latestForRun floatOf collation t runId =
        (run InMemoryRecoveryOutcomeStore.writeOutcome {} outcomes).latestForRun runId ↔
      Newest collation outcomes runId := by
  have hfilter : (t.rows.filter (fun row => row.runId = runId)).map (outcomeOf floatOf) =
      outcomes.filter (fun o => o.runId = runId) := by
    rw [← h.outcomes, List.filter_map]
    rfl
  rw [latestForRun, InMemoryRecoveryOutcomeStore.latestForRun,
    InMemoryRecoveryOutcomeStore.outcomes_run, Newest, ← hfilter]
  exact argmax_last_iff collation floatOf (h.ordered.filter _)

end

/-! ### Writing -/

def insertRow (outcome : RecoveryOutcome) (t : OutcomeTable) : Except PyError (Unit × OutcomeTable) :=
  .ok ((), t.insert outcome)

/-- `SQLiteRecoveryOutcomeStore.write_outcome`. The insertion opens the transaction. -/
def writeOutcome (outcome : RecoveryOutcome) : Call PyError (Conn OutcomeTable) Unit :=
  Conn.guardedTransaction busy (do
    Conn.exec busy (insertRow outcome)
    pure (.commit ()))

/-- The connection, and the outcomes whose writing returned. -/
abbrev Sqlite := Conn OutcomeTable × List RecoveryOutcome

def sqliteWrite (s : Sqlite) (outcome : RecoveryOutcome) : Sqlite :=
  match writeOutcome outcome s.1 with
  | .ok _ c => (c, s.2 ++ [outcome])
  | .error _ c => (c, s.2)

/-- `PostgresRecoveryOutcomeStore`: the table, and the outcomes whose insertion was executed. -/
abbrev Postgres := OutcomeTable × List RecoveryOutcome

/-- A statement that fails inserts nothing; a number of the sequence it has drawn is not drawn again. -/
def postgresWrite (s : Postgres) (x : RecoveryOutcome × Bool) : Postgres :=
  if x.2 then ({ s.1 with lastId := s.1.lastId + 1 }, s.2) else (s.1.insert x.1, s.2 ++ [x.1])

theorem writeOutcome_atomic (outcome : RecoveryOutcome) :
    Conn.Atomic (writeOutcome outcome) (fun t _ t' => t' = t.insert outcome) := by
  refine (Conn.guardedTransaction_atomic ((Conn.InTransaction.exec busy (insertRow outcome)).bind
    (fun _ => Conn.InTransaction.pure _)) busy).mono ?_
  rintro t _ t' (⟨_, t'', hinsert, -, rfl⟩ | ⟨⟨_, _, _, _, hclose, -⟩, -⟩)
  · cases hinsert
    rfl
  · cases hclose

theorem sqlite_stored (floatOf : List Char → String) (outcomes : List RecoveryOutcome) (faults : List Bool) :
    (run sqliteWrite (Conn.idle {} faults, []) outcomes).1.working = none ∧
      Stored floatOf (run sqliteWrite (Conn.idle {} faults, []) outcomes).1.committed
        (run sqliteWrite (Conn.idle {} faults, []) outcomes).2 := by
  refine run_invariant (I := fun s : Sqlite => s.1.working = none ∧ Stored floatOf s.1.committed s.2) ?_
    ⟨rfl, stored_empty floatOf⟩ outcomes
  rintro s outcome ⟨hidle, hstored⟩
  rw [sqliteWrite]
  rcases writeOutcome_atomic outcome s.1 hidle with ⟨_, c, hc, hworking, hcommitted⟩ | ⟨e, c, hc, hworking, hsame⟩
  · rw [hc]
    exact ⟨hworking, by rw [hcommitted]; exact hstored.insert outcome⟩
  · rw [hc]
    exact ⟨hworking, by rw [hsame]; exact hstored⟩

theorem postgres_stored (floatOf : List Char → String) (outcomes : List (RecoveryOutcome × Bool)) :
    Stored floatOf (run postgresWrite ({}, []) outcomes).1 (run postgresWrite ({}, []) outcomes).2 := by
  refine run_invariant (I := fun s : Postgres => Stored floatOf s.1 s.2) ?_ (stored_empty floatOf) outcomes
  rintro s ⟨outcome, failed⟩ hstored
  rw [postgresWrite]
  split
  · exact ⟨hstored.outcomes, hstored.ordered, fun row hrow => Nat.le_succ_of_le (hstored.bounded row hrow)⟩
  · exact hstored.insert outcome

/-- **After any writes, of which any may fail, a database store answers for a run as the store in
memory does after the writes that were carried out, exactly when no earlier outcome of the run
carries a later time**: by the order of code points in SQLite, and in PostgreSQL by the collation of
the database. -/
theorem latest_outcome_iff {κ : Type} [LinearOrder κ] (collation : String → κ)
    (floatOf : List Char → String) (outcomes : List RecoveryOutcome) (faults : List Bool)
    (pgOutcomes : List (RecoveryOutcome × Bool)) (runId : String) :
    (latestForRun floatOf id (run sqliteWrite (Conn.idle {} faults, []) outcomes).1.committed runId =
        (run InMemoryRecoveryOutcomeStore.writeOutcome {}
          (run sqliteWrite (Conn.idle {} faults, []) outcomes).2).latestForRun runId ↔
      Newest id (run sqliteWrite (Conn.idle {} faults, []) outcomes).2 runId) ∧
    (latestForRun floatOf collation (run postgresWrite ({}, []) pgOutcomes).1 runId =
        (run InMemoryRecoveryOutcomeStore.writeOutcome {}
          (run postgresWrite ({}, []) pgOutcomes).2).latestForRun runId ↔
      Newest collation (run postgresWrite ({}, []) pgOutcomes).2 runId) :=
  ⟨latestForRun_iff id floatOf (sqlite_stored floatOf outcomes faults).2 runId,
    latestForRun_iff collation floatOf (postgres_stored floatOf pgOutcomes) runId⟩

end OutcomeTable
end AgentKernel.Persistence
