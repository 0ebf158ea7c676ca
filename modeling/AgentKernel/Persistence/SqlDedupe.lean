import AgentKernel.Lib.Table
import AgentKernel.Lib.Transaction
import AgentKernel.Dedupe.Ledger

/-! Dedupe stores over SQLite.

`SQLiteDedupeStore` and the store of the colocated bundle send the same statements
to different tables, each method in a transaction of its own. They are written
here once, for a dedupe table found in a database (`TableIn`). A read through a
pooled read connection sees the committed database, as a read on the idle write
connection does.

Whatever statements fail, a method that returns did what the ledger does and one
that raises did nothing (`methods_keep`); when none fails by itself the store is
the ledger exactly (`methods_exact`). -/
namespace AgentKernel.Persistence
open Lib Dedupe

/-- `dispatch_idempotency_key` is the primary key. -/
abbrev DedupeTable := Table DedupeRecord String DedupeRecord.dispatchIdempotencyKey

/-- A database that has a dedupe table, and how its store words a lost update. -/
structure TableIn (δ : Type) where
  table : δ → DedupeTable
  put : δ → DedupeTable → δ
  table_put : ∀ d t, table (put d t) = t
  lostUpdate : String → DedupeState → PyError

/-- A locked database, and every other failure of the connection. -/
def busy : PyError := ⟨.operationalError, "database is locked"⟩

/-- The columns an `UPDATE` writes. -/
def updatedColumns (state : DedupeState) (peerOperationId externalAckRef : Option String)
    (r : DedupeRecord) : DedupeRecord :=
  { r with state := state, peerOperationId := peerOperationId, externalAckRef := externalAckRef }

theorem updatedColumns_key {state : DedupeState} {peer ack : Option String} (r : DedupeRecord) :
    (updatedColumns state peer ack r).dispatchIdempotencyKey = r.dispatchIdempotencyKey := rfl

/-- What an `INTEGER` column takes. -/
def FitsInt64 (n : Int) : Prop := -9223372036854775808 ≤ n ∧ n < 9223372036854775808

instance (n : Int) : Decidable (FitsInt64 n) := inferInstanceAs (Decidable (_ ∧ _))

/-- An idle connection on which no statement fails by itself. -/
def Reliable {δ : Type} (c : Conn δ) : Prop := ∃ d, c = Conn.idle d []

/-- A method evaluated on a reliable connection. -/
theorem follows_of_eval {δ α : Type} (ledger : δ → Ledger) {x : Call PyError (Conn δ) α} {d d' : δ}
    {r : Except PyError α} (h : x (Conn.idle d []) = match r with
      | .ok a => .ok a (Conn.idle d' [])
      | .error e => .error e (Conn.idle d' [])) :
    Follows False Reliable (fun c => ledger c.committed) x (Conn.idle d []) (r, ledger d') := by
  cases r with
  | ok a =>
    obtain ⟨ho, ha⟩ := Call.outcome_ok h
    rw [Follows, ho, ha]
    exact ⟨⟨d', rfl⟩, .inl rfl⟩
  | error e =>
    obtain ⟨ho, ha⟩ := Call.outcome_error h
    rw [Follows, ho, ha]
    exact ⟨⟨d', rfl⟩, .inl rfl⟩

namespace TableIn
variable {δ : Type} (T : TableIn δ)

/-! ### Statements -/

def selectRow (key : String) (d : δ) : Except PyError (Option DedupeRecord × δ) :=
  .ok ((T.table d).select key, d)

def overflow : PyError := ⟨.overflowError, "Python int too large to convert to SQLite INTEGER"⟩

def insertRow (r : DedupeRecord) (d : δ) : Except PyError (Unit × δ) :=
  if FitsInt64 r.attemptSeq then
    match (T.table d).insert r with
    | some t => .ok ((), T.put d t)
    | none => .error ⟨.integrityError, "UNIQUE constraint failed: dispatch_idempotency_key"⟩
  else .error overflow

/-- The number of rows updated. -/
def updateRow (key : String) (state : DedupeState) (peerOperationId externalAckRef : Option String)
    (d : δ) : Except PyError (Nat × δ) :=
  .ok ((T.table d).rowcount key, T.put d ((T.table d).update key
    (updatedColumns state peerOperationId externalAckRef) updatedColumns_key))

/-- The escaped prefix of `count_by_run`. -/
def likePattern (runId : String) : String :=
  String.ofList (runId.toList.flatMap (fun c => if c ∈ ['\\', '%', '_'] then ['\\', c] else [c])) ++ ":%"

def patternTooComplex : PyError := ⟨.operationalError, "LIKE or GLOB pattern too complex"⟩

/-- The rows `WHERE dispatch_idempotency_key LIKE`. Only where there is a row is the pattern
looked at. -/
def whereLike (pattern : String) (d : δ) : Except PyError (List DedupeRecord) :=
  if (T.table d).rows ≠ [] ∧ Text.tooComplex pattern = true then .error patternTooComplex
  else .ok ((T.table d).rows.filter (fun r => Text.like '\\' pattern r.dispatchIdempotencyKey))

def countLike (pattern : String) (d : δ) : Except PyError (Nat × δ) :=
  (fun rows => (rows.length, d)) <$> T.whereLike pattern d

/-! ### Methods -/

def get (key : String) : Call PyError (Conn δ) (Option DedupeRecord) :=
  Conn.exec busy (T.selectRow key)

def reserveBody (envelope : IdempotencyEnvelope) (state : DedupeState)
    (peerOperationId : Option String) : Call PyError (Conn δ) (Conn.Close DedupeReservation) := do
  match ← T.get envelope.dispatchIdempotencyKey with
  | some existing => pure (.rollback (.duplicateOf existing))
  | none => do
    Conn.exec busy (T.insertRow (envelope.record state peerOperationId))
    pure (.commit .granted)

/-- Only `reserve_and_dispatch` drops an error of its rollback. -/
def reserveAs (envelope : IdempotencyEnvelope) (state : DedupeState)
    (peerOperationId : Option String) : Call PyError (Conn δ) DedupeReservation :=
  Conn.transaction busy (state = .dispatched) (T.reserveBody envelope state peerOperationId)

def markBody (m : Mark) (key : String) (peerOperationId externalAckRef : Option String) :
    Call PyError (Conn δ) (Conn.Close Unit) := do
  match ← T.get key with
  | none => throw (unknownKey key)
  | some record =>
    if record.state ∈ m.allowed then do
      let rowcount ← Conn.exec busy (T.updateRow key m.target
        (Text.orElse peerOperationId record.peerOperationId)
        (Text.orElse externalAckRef record.externalAckRef))
      if rowcount = 1 then pure (.commit ()) else throw (T.lostUpdate key m.target)
    else throw (cannotTransition record.state m.target)

def mark (m : Mark) (key : String) (peerOperationId externalAckRef : Option String) :
    Call PyError (Conn δ) Unit :=
  Conn.guardedTransaction busy (T.markBody m key peerOperationId externalAckRef)

def countByRun (runId : String) : Call PyError (Conn δ) Nat :=
  Conn.exec busy (T.countLike (likePattern runId))

def methods : StoreMethods (Conn δ) where
  reserveAs := T.reserveAs
  mark := T.mark
  get := T.get
  countByRun := fun runId => some <$> T.countByRun runId

/-- The ledger the committed table holds. -/
def ledger (d : δ) : Ledger := (T.table d).select

def view (c : Conn δ) : Ledger := T.ledger c.committed

/-! ### What the statements do to the ledger -/

theorem ledger_insert {d d' : δ} {r : DedupeRecord} (h : T.insertRow r d = .ok ((), d')) :
    T.ledger d' = (T.ledger d).put r.dispatchIdempotencyKey r := by
  unfold insertRow at h
  split at h
  · split at h
    · rename_i t ht
      simp only [Except.ok.injEq, Prod.mk.injEq, true_and] at h
      subst h
      funext key
      rw [Ledger.put_apply, ledger, T.table_put]
      exact Table.select_insert ht key
    · cases h
  · cases h

/-- A key that is free can be inserted, if its attempt number fits. -/
theorem insertRow_ok {d : δ} {r : DedupeRecord} (hfits : FitsInt64 r.attemptSeq)
    (hfree : T.ledger d r.dispatchIdempotencyKey = none) :
    ∃ d', T.insertRow r d = .ok ((), d') := by
  obtain ⟨t, ht, _⟩ := Table.insert_of_select (t := T.table d) (r := r) hfree
  exact ⟨T.put d t, by simp only [insertRow, hfits, if_true, ht]⟩

/-- Updating a present row moves its record, and finds exactly one row. -/
theorem updateRow_ok {d : δ} {key : String} {r : DedupeRecord} (h : T.ledger d key = some r)
    (state : DedupeState) (peer ack : Option String) :
    ∃ d', T.updateRow key state (Text.orElse peer r.peerOperationId)
        (Text.orElse ack r.externalAckRef) d = .ok (1, d') ∧
      T.ledger d' = (T.ledger d).put key (r.moved state peer ack) := by
  refine ⟨_, congrArg Except.ok (Prod.ext (Table.rowcount_of_select h) rfl), ?_⟩
  funext key'
  rw [Ledger.put_apply, ledger, T.table_put, Table.select_update]
  have hsel : (T.table d).select key = some r := h
  simp only [hsel]
  rfl

/-! ### With failures -/

theorem reserveBody_inTransaction (e : IdempotencyEnvelope) (state : DedupeState)
    (peer : Option String) :
    Conn.InTransaction (T.reserveBody e state peer) (fun d r d' =>
      ((T.ledger d).reserve e state peer = (.granted, T.ledger d') ∧ r = .commit .granted) ∨
      ∃ existing, (T.ledger d).reserve e state peer = (.duplicateOf existing, T.ledger d) ∧
        r = .rollback (.duplicateOf existing)) := by
  refine (Conn.InTransaction.bind (Conn.InTransaction.exec busy _) (R := fun found d r d' =>
    match found with
    | some existing => r = .rollback (.duplicateOf existing)
    | none => T.insertRow (e.record state peer) d = .ok ((), d') ∧ r = .commit .granted)
    (fun found => ?_)).mono ?_
  · cases found with
    | some existing => exact (Conn.InTransaction.pure _).mono (fun _ _ _ h => h.1)
    | none =>
      refine (Conn.InTransaction.bind (Conn.InTransaction.exec busy _)
        (fun _ => Conn.InTransaction.pure _)).mono ?_
      intro d r d' hran
      obtain ⟨_, _, hins, rfl, rfl⟩ := hran
      exact ⟨hins, rfl⟩
  · intro d r d' hran
    obtain ⟨found, d₁, hsel, hr⟩ := hran
    simp only [selectRow, Except.ok.injEq, Prod.mk.injEq] at hsel
    obtain ⟨hfound, rfl⟩ := hsel
    have hledger : T.ledger d e.dispatchIdempotencyKey = found := hfound
    cases found with
    | some existing => exact .inr ⟨existing, Ledger.reserve_present hledger state peer, hr⟩
    | none =>
      refine .inl ⟨?_, hr.2⟩
      simp only [Ledger.reserve, hledger, T.ledger_insert hr.1]
      rfl

theorem markBody_inTransaction (m : Mark) (key : String) (peer ack : Option String) :
    Conn.InTransaction (T.markBody m key peer ack) (fun d r d' =>
      (T.ledger d).mark m key peer ack = .ok (T.ledger d') ∧ r = .commit ()) := by
  refine (Conn.InTransaction.bind (Conn.InTransaction.exec busy _) (R := fun found d r d' =>
    ∃ record, found = some record ∧ record.state ∈ m.allowed ∧ r = .commit () ∧
      ∃ n, T.updateRow key m.target (Text.orElse peer record.peerOperationId)
        (Text.orElse ack record.externalAckRef) d = .ok (n, d')) (fun found => ?_)).mono ?_
  · cases found with
    | none => exact Conn.InTransaction.throw _ _
    | some record =>
      by_cases hallowed : record.state ∈ m.allowed
      · simp only [hallowed, if_true]
        refine (Conn.InTransaction.bind (Conn.InTransaction.exec busy _)
          (R := fun _ d r d' => r = .commit () ∧ d' = d) (fun n => ?_)).mono ?_
        · split
          · exact Conn.InTransaction.pure _
          · exact Conn.InTransaction.throw _ _
        · intro d r d' hran
          obtain ⟨n, d₁, hupd, rfl, rfl⟩ := hran
          exact ⟨record, rfl, hallowed, rfl, n, hupd⟩
      · simp only [hallowed, if_false]
        exact Conn.InTransaction.throw _ _
  · intro d r d' hran
    obtain ⟨found, d₁, hsel, record, rfl, hallowed, rfl, n, hupd⟩ := hran
    simp only [selectRow, Except.ok.injEq, Prod.mk.injEq] at hsel
    obtain ⟨hfound, rfl⟩ := hsel
    have hledger : T.ledger d key = some record := hfound
    obtain ⟨d'', hd'', hput⟩ := T.updateRow_ok hledger m.target peer ack
    rw [hd''] at hupd
    simp only [Except.ok.injEq, Prod.mk.injEq] at hupd
    rw [← hupd.2]
    exact ⟨by simp only [Ledger.mark, hledger, hallowed, if_true, hput], rfl⟩

/-- An atomic method whose commits follow the ledger follows it. -/
theorem follows_of_atomic {α : Type} {x : Call PyError (Conn δ) α} {Q : δ → α → δ → Prop}
    (hx : Conn.Atomic x Q) {c : Conn δ} (hc : c.working = none)
    {spec : Except PyError α × Ledger}
    (hspec : ∀ a d', Q c.committed a d' → (.ok a, T.ledger d') = spec) :
    Follows True (fun c => c.working = none) T.view x c spec := by
  rcases hx c hc with ⟨a, c', he, hw, hQ⟩ | ⟨e, c', he, hw, hsame⟩
  · obtain ⟨ho, ha⟩ := Call.outcome_ok he
    rw [Follows, ho, ha]
    exact ⟨hw, .inl (hspec a _ hQ)⟩
  · obtain ⟨ho, ha⟩ := Call.outcome_error he
    rw [Follows, ho, ha]
    exact ⟨hw, .inr ⟨trivial, ⟨e, rfl⟩, congrArg T.ledger hsame⟩⟩

theorem methods_keep : MethodsKeep T.methods True .all (fun c => c.working = none) T.view where
  reserveAs := by
    intro e state peer c _ hc
    refine T.follows_of_atomic (Conn.transaction_atomic (T.reserveBody_inTransaction e state peer)
      busy _) hc ?_
    intro a d' hends
    rcases hends with (⟨hr, he⟩ | ⟨_, _, he⟩) | ⟨⟨_, hr⟩, rfl⟩
    · cases he
      simp only [view, hr]
    · cases he
    · rcases hr with ⟨_, he⟩ | ⟨existing, hr, he⟩
      · cases he
      · cases he
        simp only [view, hr]
  mark := by
    intro m key peer ack c _ hc
    refine T.follows_of_atomic (Conn.guardedTransaction_atomic (T.markBody_inTransaction m key peer ack)
      busy) hc ?_
    intro a d' hends
    rcases hends with ⟨hm, he⟩ | ⟨⟨_, _, he⟩, _⟩
    · cases he
      simp only [view, hm]
    · cases he
  get := by
    intro key c _ hc
    refine T.follows_of_atomic (Conn.exec_atomic busy _) hc ?_
    intro a d' h
    simp only [selectRow, Except.ok.injEq, Prod.mk.injEq] at h
    obtain ⟨rfl, rfl⟩ := h
    rfl

/-! ### Without failures -/

/-- What SQLite can store: a new row needs an attempt number that fits its column. -/
def int64 : Domain where
  reserve := fun L e _ => L e.dispatchIdempotencyKey = none → FitsInt64 e.attemptSeq
  mark := fun _ _ _ _ _ => True
  get := fun _ => True

theorem int64_refuses : int64.Refuses := by
  intro L e _ r hr hnone
  rw [hr] at hnone
  cases hnone

theorem get_open (key : String) (d₀ d : δ) :
    T.get key ⟨d₀, some d, []⟩ = .ok (T.ledger d key) ⟨d₀, some d, []⟩ := by
  rw [get, Conn.exec_open]
  rfl

theorem reserveBody_open (e : IdempotencyEnvelope) (state : DedupeState) (peer : Option String)
    (d : δ) (hfits : T.ledger d e.dispatchIdempotencyKey = none → FitsInt64 e.attemptSeq) :
    ∃ r d', T.reserveBody e state peer ⟨d, some d, []⟩ = .ok r ⟨d, some d', []⟩ ∧
      (r = .commit .granted ∧ (T.ledger d).reserve e state peer = (.granted, T.ledger d') ∨
        ∃ existing, r = .rollback (.duplicateOf existing) ∧
          (T.ledger d).reserve e state peer = (.duplicateOf existing, T.ledger d)) := by
  rw [reserveBody, Call.bind_apply, get_open]
  cases hfound : T.ledger d e.dispatchIdempotencyKey with
  | some existing =>
    exact ⟨_, d, rfl, .inr ⟨existing, rfl, Ledger.reserve_present hfound state peer⟩⟩
  | none =>
    obtain ⟨d', hins⟩ := T.insertRow_ok (r := e.record state peer) (hfits hfound) hfound
    refine ⟨_, d', ?_, .inl ⟨rfl, ?_⟩⟩
    · simp only [Call.bind_apply, Conn.exec_open, hins, Call.pure_apply]
    · simp only [Ledger.reserve, hfound, T.ledger_insert hins]
      rfl

theorem markBody_open (m : Mark) (key : String) (peer ack : Option String) (d : δ) :
    match (T.ledger d).mark m key peer ack with
    | .ok L => ∃ d', T.markBody m key peer ack ⟨d, some d, []⟩ = .ok (.commit ()) ⟨d, some d', []⟩ ∧
        T.ledger d' = L
    | .error e => T.markBody m key peer ack ⟨d, some d, []⟩ = .error e ⟨d, some d, []⟩ := by
  rw [markBody, Call.bind_apply, get_open, Ledger.mark]
  cases hfound : T.ledger d key with
  | none => rfl
  | some record =>
    by_cases hallowed : record.state ∈ m.allowed
    · obtain ⟨d', hupd, hput⟩ := T.updateRow_ok hfound m.target peer ack
      simp only [hallowed, if_true, Call.bind_apply, Conn.exec_open, hupd, Call.pure_apply]
      exact ⟨d', rfl, hput⟩
    · simp only [hallowed, if_false, Call.throw_apply]

theorem methods_exact : MethodsKeep T.methods False int64 Reliable T.view where
  reserveAs := by
    intro e state peer _ he hreliable
    obtain ⟨d, rfl⟩ := hreliable
    obtain ⟨r, d', hbody, ⟨rfl, hr⟩ | ⟨existing, rfl, hr⟩⟩ :=
      T.reserveBody_open e state peer d he
    · have heval := Conn.transaction_idle busy (state = .dispatched) hbody
      have hf := follows_of_eval T.ledger (r := .ok DedupeReservation.granted) heval
      simp only [view, Conn.idle, hr]
      exact hf
    · have heval := Conn.transaction_idle busy (state = .dispatched) hbody
      have hf := follows_of_eval T.ledger (r := .ok (DedupeReservation.duplicateOf existing)) heval
      simp only [view, Conn.idle, hr]
      exact hf
  mark := by
    intro m key peer ack _ _ hreliable
    obtain ⟨d, rfl⟩ := hreliable
    have hbody := T.markBody_open m key peer ack d
    simp only [view, Conn.idle]
    cases hmark : (T.ledger d).mark m key peer ack with
    | ok L =>
      rw [hmark] at hbody
      obtain ⟨d', hb, rfl⟩ := hbody
      exact follows_of_eval T.ledger (r := .ok ()) (Conn.guardedTransaction_idle busy hb)
    | error e =>
      rw [hmark] at hbody
      exact follows_of_eval T.ledger (r := .error e) (Conn.guardedTransaction_idle_error busy hbody)
  get := by
    intro key _ _ hreliable
    obtain ⟨d, rfl⟩ := hreliable
    exact follows_of_eval T.ledger (r := .ok (T.ledger d key)) (Conn.exec_idle busy _ d)

/-- A new row whose attempt number does not fit its column. -/
theorem reserveBody_overflow {e : IdempotencyEnvelope} {d : δ}
    (hfree : T.ledger d e.dispatchIdempotencyKey = none) (hfits : ¬ FitsInt64 e.attemptSeq)
    (state : DedupeState) (peer : Option String) :
    T.reserveBody e state peer ⟨d, some d, []⟩ = .error overflow ⟨d, some d, []⟩ := by
  have hrow : ¬ FitsInt64 (e.record state peer).attemptSeq := hfits
  simp only [reserveBody, Call.bind_apply, get_open, hfree, Conn.exec_open, insertRow, hrow, if_false]

/-- Without failures of the connection the store still keeps the ledger on every
call: what it cannot store raises and changes nothing. -/
theorem methods_reliable : MethodsKeep T.methods True .all Reliable T.view where
  reserveAs := by
    intro e state peer _ _ hreliable
    obtain ⟨d, rfl⟩ := hreliable
    by_cases hin : int64.reserve (T.ledger d) e peer
    · exact (T.methods_exact.reserveAs e state peer (Conn.idle d []) hin ⟨d, rfl⟩).mono (fun h => h.elim)
    · obtain ⟨hfree, hfits⟩ := Classical.not_imp.mp hin
      obtain ⟨ho, ha⟩ := Call.outcome_error (Conn.transaction_idle_error busy (state = .dispatched)
        (T.reserveBody_overflow hfree hfits state peer))
      have hout : (T.methods.reserveAs e state peer).outcome (Conn.idle d []) = .error overflow := ho
      have hafter : (T.methods.reserveAs e state peer).after (Conn.idle d []) = Conn.idle d [] := ha
      rw [Follows, hout, hafter]
      exact ⟨⟨d, rfl⟩, .inr ⟨trivial, ⟨overflow, rfl⟩, rfl⟩⟩
  mark := fun m key peer ack c _ hc =>
    (T.methods_exact.mark m key peer ack c trivial hc).mono (fun h => h.elim)
  get := fun key c _ hc => (T.methods_exact.get key c trivial hc).mono (fun h => h.elim)

end TableIn

/-! ### `SQLiteDedupeStore` -/

/-- A database that is its dedupe table. -/
def sqliteTable : TableIn DedupeTable where
  table := id
  put := fun _ t => t
  table_put := fun _ _ => rfl
  lostUpdate := fun key state => ⟨.dedupeStoreStateError, "Lost-update: key '" ++ key ++
    "' not found during state transition to '" ++ state.text ++ "'."⟩

namespace SQLiteDedupeStore

def port : DedupeStorePort (Conn DedupeTable) := sqliteTable.methods.port

end SQLiteDedupeStore
end AgentKernel.Persistence
