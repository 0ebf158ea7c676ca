import AgentKernel.Persistence.Colocated
import AgentKernel.Persistence.PgDedupe

/-! The dedupe backends side by side.

All four keep the ledger, so all of them only move it forward, and they answer the
calls on records alike as long as PostgreSQL can hold what it is handed. They part
at `count_by_run`: the in-memory store counts the keys that start with the run id,
the SQLite stores those that continue it with a colon, up to ASCII case, and the
PostgreSQL store does not implement the method. -/
namespace AgentKernel.Persistence
open Lib Dedupe

/-! ### Forward only -/

theorem inMemory_onlyForward (records : InMemoryDedupeStore) :
    OnlyForward False InMemoryDedupeStore.port InMemoryDedupeStore.view records :=
  Keeps.onlyForward
    (fun c s hc hs => (InMemoryDedupeStore.methods_keep.keeps c s hc hs).mono (fun h => h.elim))
    Domain.all_refuses InMemoryDedupeStore.methods_keep.keeps trivial

/-- A store over SQLite whose connection may fail. -/
theorem TableIn.onlyForward {δ : Type} (T : TableIn δ) (d : δ) (faults : List Bool) :
    OnlyForward True T.methods.port T.view (Conn.idle d faults) :=
  Keeps.onlyForward T.methods_keep.keeps Domain.all_refuses T.methods_keep.keeps rfl

/-- The same on a connection that does not. -/
theorem TableIn.onlyForward_reliable {δ : Type} (T : TableIn δ) (d : δ) :
    OnlyForward False T.methods.port T.view (Conn.idle d []) :=
  Keeps.onlyForward T.methods_reliable.keeps int64_refuses T.methods_exact.keeps ⟨d, rfl⟩

/-- **The dedupe ledger only moves forward, in every backend**, whatever it held
before and whichever statements of the connection fail. -/
theorem dedupe_backends_only_move_forward (records : InMemoryDedupeStore) (table : DedupeTable)
    (db : BundleDb) (faults : List Bool) :
    OnlyForward False InMemoryDedupeStore.port InMemoryDedupeStore.view records ∧
      (OnlyForward True SQLiteDedupeStore.port sqliteTable.view (Conn.idle table faults) ∧
        OnlyForward False SQLiteDedupeStore.port sqliteTable.view (Conn.idle table [])) ∧
      (OnlyForward True SharedDedupeStore.port bundleTable.view (Conn.idle db faults) ∧
        OnlyForward False SharedDedupeStore.port bundleTable.view (Conn.idle db [])) :=
  ⟨inMemory_onlyForward records,
    ⟨sqliteTable.onlyForward table faults, sqliteTable.onlyForward_reliable table⟩,
    ⟨bundleTable.onlyForward db faults, bundleTable.onlyForward_reliable db⟩⟩

/-! ### Interchangeable -/

/-- Every call of the port. -/
inductive PortCall where
  | ledger (call : LedgerCall)
  | countByRun (runId : String)
  deriving DecidableEq, Repr

inductive PortAnswer where
  | ledger (answer : LedgerAnswer)
  | count (n : Option Nat)
  deriving DecidableEq, Repr

def performPort {σ : Type} (S : DedupeStorePort σ) : PortCall → Call PyError σ PortAnswer
  | .ledger call => PortAnswer.ledger <$> perform S call
  | .countByRun runId => PortAnswer.count <$> S.countByRun runId

/-- What a caller sees of a sequence of calls: each value returned or the kind of the
exception. -/
def observations {σ : Type} (S : DedupeStorePort σ) : σ → List PortCall → List (Except ErrorKind PortAnswer)
  | _, [] => []
  | s, c :: rest =>
    ((performPort S c).outcome s).mapError PyError.kind ::
      observations S ((performPort S c).after s) rest

/-- The four backends, started empty, cannot be told apart by these calls. -/
def Interchangeable (server : PgServer) (calls : List PortCall) : Prop :=
  observations InMemoryDedupeStore.port Dict.empty calls =
      observations SQLiteDedupeStore.port (Conn.idle Table.empty []) calls ∧
    observations InMemoryDedupeStore.port Dict.empty calls =
      observations SharedDedupeStore.port (Conn.idle BundleDb.empty []) calls ∧
    observations InMemoryDedupeStore.port Dict.empty calls =
      observations (PostgresDedupeStore.port server) (Conn.idle Table.empty []) calls

/-- No call counts a run, and none hands PostgreSQL what it cannot hold. -/
def Portable (server : PgServer) : Ledger → List PortCall → Prop
  | _, [] => True
  | L, .ledger call :: rest =>
    call.Within (PostgresDedupeStore.holds server) L ∧ Portable server (L.answer call).2 rest
  | _, .countByRun _ :: _ => False

/-- What the ledger shows of a sequence of its own calls. -/
def ledgerObservations : Ledger → List PortCall → List (Except ErrorKind PortAnswer)
  | _, [] => []
  | L, .ledger call :: rest =>
    ((L.answer call).1.map PortAnswer.ledger).mapError PyError.kind ::
      ledgerObservations (L.answer call).2 rest
  | _, .countByRun _ :: _ => []

section
variable {σ : Type} {S : DedupeStorePort σ} {D : Domain} {Inv : σ → Prop} {view : σ → Ledger}

/-- One call within the domain of a store that keeps the ledger. -/
theorem performPort_keeps (h : Keeps S False D Inv view) {s : σ} (hs : Inv s) {c : LedgerCall}
    (hc : c.Within D (view s)) :
    Inv ((performPort S (.ledger c)).after s) ∧
      (performPort S (.ledger c)).outcome s = ((view s).answer c).1.map PortAnswer.ledger ∧
      view ((performPort S (.ledger c)).after s) = ((view s).answer c).2 := by
  obtain ⟨hinv, heq | ⟨hf, _⟩⟩ := h c s hc hs
  · simp only [performPort, Call.after_map, Call.outcome_map]
    exact ⟨hinv, by rw [← heq], by rw [← heq]⟩
  · exact hf.elim

theorem observations_of_portable (server : PgServer) (h : Keeps S False D Inv view)
    (hD : ∀ L (c : LedgerCall), c.Within (PostgresDedupeStore.holds server) L → c.Within D L)
    {s : σ} (hs : Inv s) {calls : List PortCall} (hp : Portable server (view s) calls) :
    observations S s calls = ledgerObservations (view s) calls := by
  induction calls generalizing s with
  | nil => rfl
  | cons c rest ih =>
    cases c with
    | ledger call =>
      obtain ⟨hcall, hrest⟩ := hp
      obtain ⟨hinv, hout, hview⟩ := performPort_keeps h hs (hD _ _ hcall)
      rw [← hview] at hrest
      have htail := ih hinv hrest
      simp only [observations, ledgerObservations, hout, htail, hview]
    | countByRun runId => exact hp.elim

end

/-- What PostgreSQL can hold SQLite can. -/
theorem holds_int64 (server : PgServer) (L : Ledger) (c : LedgerCall)
    (h : c.Within (PostgresDedupeStore.holds server) L) : c.Within TableIn.int64 L := by
  cases c with
  | reserve e => exact fun _ => h.1
  | reserveAndDispatch e peer => exact fun _ => h.1
  | _ => exact trivial

/-- The ledger raises nothing but state errors. -/
theorem answer_error_kind {L : Ledger} {c : LedgerCall} {e : PyError}
    (h : (L.answer c).1 = .error e) : e.kind = .dedupeStoreStateError := by
  have hmark : ∀ m key peer ack, (L.marked (L.mark m key peer ack)).1 = .error e →
      e.kind = .dedupeStoreStateError := by
    intro m key peer ack hm
    unfold Ledger.mark at hm
    split at hm
    · cases hm
      rfl
    · split at hm
      · cases hm
      · cases hm
        rfl
  cases c with
  | reserve _ => cases h
  | reserveAndDispatch _ _ => cases h
  | get _ => cases h
  | markDispatched k peer => exact hmark _ _ _ _ h
  | markAcknowledged k ack => exact hmark _ _ _ _ h
  | markSucceeded k ack => exact hmark _ _ _ _ h
  | markUnknownEffect k => exact hmark _ _ _ _ h

/-- A call PostgreSQL cannot hold shows a kind of error the ledger never shows. -/
theorem outside_differs (server : PgServer) {c : LedgerCall} {d : DedupeTable}
    (h : ¬ c.Within (PostgresDedupeStore.holds server) (PostgresDedupeStore.ledger d)) (L : Ledger) :
    ((L.answer c).1.map PortAnswer.ledger).mapError PyError.kind ≠
      ((performPort (PostgresDedupeStore.port server) (.ledger c)).outcome (Conn.idle d [])).mapError
        PyError.kind := by
  obtain ⟨err, hforeign, herr⟩ := PostgresDedupeStore.perform_outside server h
  simp only [performPort, Call.outcome_map, herr]
  intro heq
  cases hans : (L.answer c).1 with
  | ok a =>
    rw [hans] at heq
    cases heq
  | error e =>
    rw [hans] at heq
    have hkind : e.kind = err.kind := Except.error.inj heq
    exact hforeign (hkind.symm.trans (answer_error_kind hans))

/-- Where the in-memory store and PostgreSQL show the same, the calls are portable. -/
theorem portable_of_agree (server : PgServer) (s : InMemoryDedupeStore) (d : DedupeTable)
    (hview : InMemoryDedupeStore.view s = PostgresDedupeStore.ledger d) (calls : List PortCall)
    (h : observations InMemoryDedupeStore.port s calls =
      observations (PostgresDedupeStore.port server) (Conn.idle d []) calls) :
    Portable server (PostgresDedupeStore.ledger d) calls := by
  induction calls generalizing s d with
  | nil => trivial
  | cons c rest ih =>
    simp only [observations, List.cons.injEq] at h
    obtain ⟨hhead, htail⟩ := h
    cases c with
    | countByRun runId => cases hhead
    | ledger call =>
      obtain ⟨-, hout, hnext⟩ :=
        performPort_keeps InMemoryDedupeStore.methods_keep.keeps trivial (call.within_all (InMemoryDedupeStore.view s))
      by_cases hin : call.Within (PostgresDedupeStore.holds server) (PostgresDedupeStore.ledger d)
      · -- Both follow the ledger, so they go on with the same view.
        obtain ⟨⟨d', hd'⟩, -, hnext'⟩ :=
          performPort_keeps (PostgresDedupeStore.methods_exact server).keeps ⟨d, rfl⟩ hin
        rw [show (performPort (PostgresDedupeStore.port server) (.ledger call)).after (Conn.idle d []) =
          Conn.idle d' [] from hd'] at htail
        have hledger : PostgresDedupeStore.ledger d' = ((PostgresDedupeStore.ledger d).answer call).2 := by
          rw [show (performPort (PostgresDedupeStore.methods server).port (.ledger call)).after
            (Conn.idle d []) = Conn.idle d' [] from hd'] at hnext'
          exact hnext'
        refine ⟨hin, ?_⟩
        rw [← hledger]
        refine ih _ d' ?_ htail
        rw [hledger, ← hview]
        exact hnext
      · refine (outside_differs server hin (InMemoryDedupeStore.view s) ?_).elim
        rw [← hout]
        exact hhead

theorem interchangeable_of_portable (server : PgServer) {calls : List PortCall}
    (h : Portable server (fun _ => none) calls) : Interchangeable server calls := by
  have hmem : observations InMemoryDedupeStore.port Dict.empty calls = _ :=
    observations_of_portable server InMemoryDedupeStore.methods_keep.keeps
      (fun L c _ => c.within_all L) trivial h
  have hsql : observations SQLiteDedupeStore.port (Conn.idle Table.empty []) calls = _ :=
    observations_of_portable server sqliteTable.methods_exact.keeps (holds_int64 server) ⟨_, rfl⟩ h
  have hshared : observations SharedDedupeStore.port (Conn.idle BundleDb.empty []) calls = _ :=
    observations_of_portable server bundleTable.methods_exact.keeps (holds_int64 server) ⟨_, rfl⟩ h
  have hpg : observations (PostgresDedupeStore.port server) (Conn.idle Table.empty []) calls = _ :=
    observations_of_portable server (PostgresDedupeStore.methods_exact server).keeps
      (fun _ _ hc => hc) ⟨_, rfl⟩ h
  exact ⟨hmem.trans hsql.symm, hmem.trans hshared.symm, hmem.trans hpg.symm⟩

/-- **When the backends are interchangeable.** Exactly on the sequences that never
count a run and hand PostgreSQL only what it can hold. -/
theorem backends_interchangeable_iff_portable (server : PgServer) (calls : List PortCall) :
    Interchangeable server calls ↔ Portable server (fun _ => none) calls :=
  ⟨fun h => portable_of_agree server Dict.empty Table.empty rfl calls h.2.2,
    interchangeable_of_portable server⟩

/-- A server as documented: no NUL in a text, index rows of up to 2704 bytes. -/
def documentedServer : PgServer where
  encodable := fun s => decide (Char.ofNat 0 ∉ s.toList)
  indexable := fun s => decide (s.utf8ByteSize ≤ 2704)

def countedEnvelope : IdempotencyEnvelope :=
  { dispatchIdempotencyKey := "run-1:a:0"
    operationFingerprint := "f"
    attemptSeq := 1
    effectScope := "workspace"
    capabilitySnapshotHash := "h"
    hostKind := .localCli }

/-- One reserved key, counted for a run id that is only the start of the key's: one
in memory, none in SQLite, no count at all in PostgreSQL. -/
theorem count_by_run_diverges :
    let calls := [PortCall.ledger (.reserve countedEnvelope), .countByRun "run"]
    let granted := Except.ok (PortAnswer.ledger (.reservation .granted))
    observations InMemoryDedupeStore.port Dict.empty calls = [granted, .ok (.count (some 1))] ∧
      observations SQLiteDedupeStore.port (Conn.idle Table.empty []) calls =
        [granted, .ok (.count (some 0))] ∧
      observations SharedDedupeStore.port (Conn.idle BundleDb.empty []) calls =
        [granted, .ok (.count (some 0))] ∧
      observations (PostgresDedupeStore.port documentedServer) (Conn.idle Table.empty []) calls =
        [granted, .ok (.count none)] ∧
      ¬ Interchangeable documentedServer calls := by
  refine ⟨by rfl, by rfl, by rfl, by rfl, ?_⟩
  intro hagree
  obtain ⟨h, -, -⟩ := hagree
  cases h

end AgentKernel.Persistence
