import AgentKernel.Persistence.SqlDedupe

/-! The dedupe store over PostgreSQL.

The server takes part as a parameter: which texts it can hold and which keys it
can index. A reservation is one `INSERT … ON CONFLICT DO NOTHING`; a mark reads the
row for update and rewrites it. `count_by_run` is not implemented: the method of
the protocol has no body, so calling it returns nothing.

On what the server can hold the store is the ledger exactly (`methods_exact`), and
on anything else it raises an error the other stores never raise
(`perform_outside`). -/
namespace AgentKernel.Persistence
open Lib Dedupe

/-- What a PostgreSQL server can hold: a text value (no NUL character), and a key
short enough for the index of the primary key. -/
structure PgServer where
  encodable : String → Bool
  indexable : String → Bool

def characterNotInRepertoire : PyError :=
  ⟨.dataError, "invalid byte sequence for encoding \"UTF8\": 0x00"⟩

def indexRowSize : PyError := ⟨.other "ProgramLimitExceededError", "index row size exceeds btree maximum"⟩

/-- A connection of the pool that breaks. -/
def connectionLost : PyError := ⟨.other "ConnectionDoesNotExistError", "connection was closed"⟩

namespace PgServer
variable (server : PgServer)

/-- All these parameters can be sent. -/
def encodes (texts : List (Option String)) : Bool := texts.all (fun t => t.all server.encodable)

/-- The error of a statement that binds these texts. -/
def refusal (texts : List (Option String)) : Option PyError :=
  if server.encodes texts then none else some characterNotInRepertoire

/-! ### Statements -/

def selectRow (key : String) (t : DedupeTable) : Except PyError (Option DedupeRecord × DedupeTable) :=
  if server.encodes [some key] then .ok (t.select key, t) else .error characterNotInRepertoire

/-- `INSERT … ON CONFLICT DO NOTHING RETURNING`: whether a row came back. -/
def insertOnConflict (r : DedupeRecord) (t : DedupeTable) : Except PyError (Bool × DedupeTable) :=
  if ¬ FitsInt64 r.attemptSeq then .error ⟨.dataError, "value out of int64 range"⟩
  else if server.encodes [some r.dispatchIdempotencyKey, some r.operationFingerprint, r.peerOperationId] then
    match t.insert r with
    | some t' => if server.indexable r.dispatchIdempotencyKey then .ok (true, t') else .error indexRowSize
    | none => .ok (false, t)
  else .error characterNotInRepertoire

def updateRow (key : String) (state : DedupeState) (peerOperationId externalAckRef : Option String)
    (t : DedupeTable) : Except PyError (Unit × DedupeTable) :=
  if server.encodes [peerOperationId, externalAckRef, some key] then
    .ok ((), t.update key (updatedColumns state peerOperationId externalAckRef) updatedColumns_key)
  else .error characterNotInRepertoire

end PgServer

namespace PostgresDedupeStore
variable (server : PgServer)

/-! ### Methods -/

/-- `_get_row`. -/
def getRow (key : String) : Call PyError (Conn DedupeTable) (Option DedupeRecord) :=
  Conn.exec connectionLost (server.selectRow key)

/-- `_row_to_record` of a row that may be missing. -/
def rowToRecord : Option DedupeRecord → Call PyError (Conn DedupeTable) DedupeRecord
  | some row => pure row
  | none => throw ⟨.typeError, "'NoneType' object is not subscriptable"⟩

def reserveBody (envelope : IdempotencyEnvelope) (state : DedupeState)
    (peerOperationId : Option String) :
    Call PyError (Conn DedupeTable) (Conn.Close DedupeReservation) := do
  match ← Conn.exec connectionLost (server.insertOnConflict (envelope.record state peerOperationId)) with
  | true => pure (.commit .granted)
  | false => do
    let row ← getRow server envelope.dispatchIdempotencyKey
    let existing ← rowToRecord row
    pure (.commit (.duplicateOf existing))

/-- `_reserve_impl` and `_reserve_and_dispatch_impl`. -/
def reserveAs (envelope : IdempotencyEnvelope) (state : DedupeState)
    (peerOperationId : Option String) : Call PyError (Conn DedupeTable) DedupeReservation :=
  Conn.transaction connectionLost false (reserveBody server envelope state peerOperationId)

def transitionBody (m : Mark) (key : String) (peerOperationId externalAckRef : Option String) :
    Call PyError (Conn DedupeTable) (Conn.Close Unit) := do
  match ← getRow server key with
  | none => throw (unknownKey key)
  | some row =>
    if row.state ∈ m.allowed then do
      Conn.exec connectionLost (server.updateRow key m.target
        (Text.orElse peerOperationId row.peerOperationId)
        (Text.orElse externalAckRef row.externalAckRef))
      pure (.commit ())
    else throw (cannotTransition row.state m.target)

/-- `_transition_impl`. -/
def transition (m : Mark) (key : String) (peerOperationId externalAckRef : Option String) :
    Call PyError (Conn DedupeTable) Unit :=
  Conn.transaction connectionLost false (transitionBody server m key peerOperationId externalAckRef)

def methods : StoreMethods (Conn DedupeTable) where
  reserveAs := reserveAs server
  mark := transition server
  get := getRow server
  countByRun := fun _ => pure none

def port : DedupeStorePort (Conn DedupeTable) := (methods server).port

/-! ### What the server can hold -/

/-- What a call may hand the server. A key has to fit the index only when its row is
new, and the references only when the row is rewritten. -/
def holds : Domain where
  reserve := fun L e peer => FitsInt64 e.attemptSeq ∧
    server.encodes [some e.dispatchIdempotencyKey, some e.operationFingerprint, peer] = true ∧
    (L e.dispatchIdempotencyKey = none → server.indexable e.dispatchIdempotencyKey = true)
  mark := fun L m key peer ack => server.encodes [some key] = true ∧
    ∀ r, L key = some r → r.state ∈ m.allowed →
      server.encodes [Text.orElse peer r.peerOperationId, Text.orElse ack r.externalAckRef, some key] = true
  get := fun key => server.encodes [some key] = true

def ledger (t : DedupeTable) : Ledger := t.select

def view (c : Conn DedupeTable) : Ledger := ledger c.committed

/-! ### Inside what the server can hold -/

theorem getRow_open {key : String} (h : server.encodes [some key] = true) (d₀ d : DedupeTable) :
    getRow server key ⟨d₀, some d, []⟩ = .ok (ledger d key) ⟨d₀, some d, []⟩ := by
  simp only [getRow, Conn.exec_open, PgServer.selectRow, h, if_true]
  rfl

theorem reserveBody_holds {e : IdempotencyEnvelope} {peer : Option String} {d : DedupeTable}
    (h : (holds server).reserve (ledger d) e peer) (state : DedupeState) :
    ∃ a d', reserveBody server e state peer ⟨d, some d, []⟩ = .ok (.commit a) ⟨d, some d', []⟩ ∧
      (ledger d).reserve e state peer = (a, ledger d') := by
  obtain ⟨hfits, hencodes, hindex⟩ := h
  have hparams : server.encodes [some (e.record state peer).dispatchIdempotencyKey,
      some (e.record state peer).operationFingerprint, (e.record state peer).peerOperationId] = true :=
    hencodes
  have hfits' : FitsInt64 (e.record state peer).attemptSeq := hfits
  cases hfound : ledger d e.dispatchIdempotencyKey with
  | none =>
    obtain ⟨d', hins, _⟩ := Table.insert_of_select (t := d) (r := e.record state peer) hfound
    have hkey : server.indexable (e.record state peer).dispatchIdempotencyKey = true := hindex hfound
    refine ⟨.granted, d', ?_, ?_⟩
    · simp only [reserveBody, Call.bind_apply, Conn.exec_open, PgServer.insertOnConflict, hfits',
        not_true, if_false, hparams, if_true, hins, hkey, Call.pure_apply]
    · simp only [Ledger.reserve, hfound]
      congr 1
      funext key
      rw [Ledger.put_apply]
      exact (Table.select_insert hins key).symm
  | some existing =>
    have hins : d.insert (e.record state peer) = none := by
      have htaken : d.select (e.record state peer).dispatchIdempotencyKey = some existing := hfound
      simp [Table.insert, htaken]
    have hkey : server.encodes [some e.dispatchIdempotencyKey] = true := by
      simp only [PgServer.encodes, List.all_cons, Bool.and_eq_true] at hencodes ⊢
      exact ⟨hencodes.1, rfl⟩
    refine ⟨.duplicateOf existing, d, ?_, Ledger.reserve_present hfound state peer⟩
    simp only [reserveBody, Call.bind_apply, Conn.exec_open, PgServer.insertOnConflict, hfits',
      not_true, if_false, hparams, if_true, hins, getRow_open server hkey, hfound, rowToRecord,
      Call.pure_apply]

theorem transitionBody_holds {m : Mark} {key : String} {peer ack : Option String} {d : DedupeTable}
    (h : (holds server).mark (ledger d) m key peer ack) :
    match (ledger d).mark m key peer ack with
    | .ok L => ∃ d', transitionBody server m key peer ack ⟨d, some d, []⟩ =
        .ok (.commit ()) ⟨d, some d', []⟩ ∧ ledger d' = L
    | .error e => transitionBody server m key peer ack ⟨d, some d, []⟩ = .error e ⟨d, some d, []⟩ := by
  obtain ⟨hkey, hrefs⟩ := h
  rw [transitionBody, Call.bind_apply, getRow_open server hkey, Ledger.mark]
  cases hfound : ledger d key with
  | none => rfl
  | some row =>
    by_cases hallowed : row.state ∈ m.allowed
    · have hencodes := hrefs row hfound hallowed
      simp only [hallowed, if_true, Call.bind_apply, Conn.exec_open, PgServer.updateRow, hencodes,
        Call.pure_apply]
      refine ⟨_, rfl, ?_⟩
      funext key'
      have hsel : d.select key = some row := hfound
      rw [Ledger.put_apply, ledger, Table.select_update, hsel]
      rfl
    · simp only [hallowed, if_false, Call.throw_apply]

/-- **On what the server can hold the store is the ledger.** -/
theorem methods_exact : MethodsKeep (methods server) False (holds server) Reliable view where
  reserveAs := by
    intro e state peer _ he hidle
    obtain ⟨d, rfl⟩ := hidle
    obtain ⟨a, d', hbody, hspec⟩ := reserveBody_holds server (d := d) he state
    have heval := Conn.transaction_idle connectionLost false hbody
    have hf := follows_of_eval ledger (r := .ok a) heval
    simp only [view, Conn.idle, hspec]
    exact hf
  mark := by
    intro m key peer ack _ hm hidle
    obtain ⟨d, rfl⟩ := hidle
    have hbody := transitionBody_holds server hm
    simp only [view, Conn.idle] at hbody ⊢
    cases hmark : (ledger d).mark m key peer ack with
    | ok L =>
      rw [hmark] at hbody
      obtain ⟨d', hb, rfl⟩ := hbody
      exact follows_of_eval ledger (r := .ok ()) (Conn.transaction_idle connectionLost false hb)
    | error e =>
      rw [hmark] at hbody
      exact follows_of_eval ledger (r := .error e)
        (Conn.transaction_idle_error connectionLost false hbody)
  get := by
    intro key _ hkey hidle
    obtain ⟨d, rfl⟩ := hidle
    refine follows_of_eval ledger (r := .ok (ledger d key)) ?_
    have henc : server.encodes [some key] = true := hkey
    simp only [methods, getRow, Conn.exec_idle, PgServer.selectRow, henc, if_true]
    rfl

/-! ### Outside of it -/

/-- An error no state machine raises. -/
def Foreign (e : PyError) : Prop := e.kind ≠ .dedupeStoreStateError

instance (e : PyError) : Decidable (Foreign e) := inferInstanceAs (Decidable (_ ≠ _))

theorem getRow_outside {key : String} (h : ¬ server.encodes [some key] = true) (d₀ d : DedupeTable) :
    getRow server key ⟨d₀, some d, []⟩ = .error characterNotInRepertoire ⟨d₀, some d, []⟩ := by
  simp only [getRow, Conn.exec_open, PgServer.selectRow, h]
  rfl

theorem insertOnConflict_outside {e : IdempotencyEnvelope} {peer : Option String} {d : DedupeTable}
    (h : ¬ (holds server).reserve (ledger d) e peer) (state : DedupeState) :
    ∃ err, Foreign err ∧ server.insertOnConflict (e.record state peer) d = .error err := by
  unfold PgServer.insertOnConflict
  by_cases hfits : FitsInt64 (e.record state peer).attemptSeq
  · rw [if_neg (not_not_intro hfits)]
    by_cases hencodes : server.encodes [some (e.record state peer).dispatchIdempotencyKey,
        some (e.record state peer).operationFingerprint, (e.record state peer).peerOperationId] = true
    · rw [if_pos hencodes]
      -- Only the index is left to object.
      have hindex : ¬ (ledger d e.dispatchIdempotencyKey = none →
          server.indexable e.dispatchIdempotencyKey = true) := fun hi => h ⟨hfits, hencodes, hi⟩
      rw [Classical.not_imp] at hindex
      obtain ⟨t, ht, _⟩ := Table.insert_of_select (t := d) (r := e.record state peer) hindex.1
      have hkey : ¬ server.indexable (e.record state peer).dispatchIdempotencyKey = true := hindex.2
      rw [ht]
      simp only [hkey]
      exact ⟨indexRowSize, (by decide), rfl⟩
    · rw [if_neg hencodes]
      exact ⟨characterNotInRepertoire, (by decide), rfl⟩
  · rw [if_pos hfits]
    exact ⟨_, (by decide), rfl⟩

theorem reserveAs_outside {e : IdempotencyEnvelope} {peer : Option String} {d : DedupeTable}
    (h : ¬ (holds server).reserve (ledger d) e peer) (state : DedupeState) :
    ∃ err, Foreign err ∧ (reserveAs server e state peer).outcome (Conn.idle d []) = .error err := by
  obtain ⟨err, hforeign, hins⟩ := insertOnConflict_outside server h state
  have hbody : reserveBody server e state peer ⟨d, some d, []⟩ = .error err ⟨d, some d, []⟩ := by
    simp only [reserveBody, Call.bind_apply, Conn.exec_open, hins]
  exact ⟨err, hforeign, (Call.outcome_error (Conn.transaction_idle_error connectionLost false hbody)).1⟩

theorem transition_outside {m : Mark} {key : String} {peer ack : Option String} {d : DedupeTable}
    (h : ¬ (holds server).mark (ledger d) m key peer ack) :
    ∃ err, Foreign err ∧ (transition server m key peer ack).outcome (Conn.idle d []) = .error err := by
  have hbody : ∃ err, Foreign err ∧
      transitionBody server m key peer ack ⟨d, some d, []⟩ = .error err ⟨d, some d, []⟩ := by
    refine ⟨characterNotInRepertoire, (by decide), ?_⟩
    rw [transitionBody, Call.bind_apply]
    by_cases hkey : server.encodes [some key] = true
    · have hrefs : ¬ ∀ r, ledger d key = some r → r.state ∈ m.allowed →
          server.encodes [Text.orElse peer r.peerOperationId, Text.orElse ack r.externalAckRef,
            some key] = true := fun hr => h ⟨hkey, hr⟩
      simp only [Classical.not_forall] at hrefs
      obtain ⟨row, hfound, hallowed, hencodes⟩ := hrefs
      rw [getRow_open server hkey, hfound]
      simp only [hallowed, if_true, Call.bind_apply, Conn.exec_open, PgServer.updateRow, hencodes]
      rfl
    · rw [getRow_outside server hkey]
  obtain ⟨err, hforeign, hb⟩ := hbody
  exact ⟨err, hforeign, (Call.outcome_error (Conn.transaction_idle_error connectionLost false hb)).1⟩

/-- **Whatever the server cannot hold raises an error of the server.** -/
theorem perform_outside {c : LedgerCall} {d : DedupeTable} (h : ¬ c.Within (holds server) (ledger d)) :
    ∃ err, Foreign err ∧ (perform (port server) c).outcome (Conn.idle d []) = .error err := by
  have hmap : ∀ {α : Type} (x : Call PyError (Conn DedupeTable) α) (f : α → LedgerAnswer),
      (∃ err, Foreign err ∧ x.outcome (Conn.idle d []) = .error err) →
      ∃ err, Foreign err ∧ (f <$> x : Call _ _ _).outcome (Conn.idle d []) = .error err := by
    intro α x f hrefused
    obtain ⟨err, hforeign, hx⟩ := hrefused
    exact ⟨err, hforeign, by rw [Call.outcome_map, hx]; rfl⟩
  cases c with
  | reserve e => exact hmap _ _ (reserveAs_outside server h _)
  | reserveAndDispatch e peer => exact hmap _ _ (reserveAs_outside server h _)
  | markDispatched k peer => exact hmap _ _ (transition_outside server h)
  | markAcknowledged k ack => exact hmap _ _ (transition_outside server h)
  | markSucceeded k ack => exact hmap _ _ (transition_outside server h)
  | markUnknownEffect k => exact hmap _ _ (transition_outside server h)
  | get k =>
    refine hmap _ _ ⟨characterNotInRepertoire, (by decide), ?_⟩
    have hkey : ¬ server.encodes [some k] = true := h
    simp only [Call.outcome, port, StoreMethods.port, methods, getRow, Conn.exec_idle,
      PgServer.selectRow, hkey]
    rfl

end PostgresDedupeStore
end AgentKernel.Persistence
