import AgentKernel.Lib.SharedConn
import AgentKernel.Persistence.SqliteEventLog

/-! Event log and dedupe store on the write connection of one pool.

`acquire_write` hands out the same connection to everybody. The log and the store each have a
lock of their own, so from two threads the statements of an append and of a store method
interleave on one transaction: a rollback of either takes the writes of both with it, and a
commit of either keeps them. The statements of the log are in a transaction that its first
insertion opens; the store begins and ends its own by hand. The insertion of a commit row and the
reading of its number (`lastrowid`, which the cursor keeps) are one step.

A method that has returned leaves exactly those of its writes whose transaction was ended by a
commit (`appends_left`, `calls_left`). So an acknowledged append has all of its rows, and a
granted reservation its record, exactly when no rollback of the other found them pending. -/
namespace AgentKernel.Persistence.Pooled
open Lib Dedupe

/-! ### Methods, statement by statement -/

inductive PoolUser where
  | eventLog
  | dedupeStore
  deriving DecidableEq, Repr

/-- What a statement writes that is not a commit row. -/
inductive Written where
  | event (row : EventRow)
  | record (key : String) (r : DedupeRecord)

inductive PoolCall where
  | append (commit : ActionCommit)
  | ledger (call : LedgerCall)

inductive PoolAnswer where
  | ref (ref : String)
  | ledger (answer : LedgerAnswer)

def PoolCall.user : PoolCall → PoolUser
  | .append _ => .eventLog
  | .ledger _ => .dedupeStore

abbrev Method := Script PyError BundleDb Written PoolAnswer

/-- Go on with a value, or handle the error. -/
def orElse {β : Type} (handle : PyError → Method) (next : β → Method) : Except PyError β → Method
  | .error e => handle e
  | .ok b => next b

/-- Go on, or handle the error. -/
def orUndo (handle : PyError → Method) (next : Method) : Option PyError → Method
  | some e => handle e
  | none => next

namespace EventLog
open SQLiteKernelRuntimeEventLog

/-- The connection's exit after an exception: `rollback()`, which needs no transaction. -/
def exitRaised (e : PyError) : Method := .rollback true (fun _ => .done (.error e))

/-- Its exit without one: `commit()`; if that fails, `rollback()`. -/
def exitReturned (ref : String) : Method :=
  .commit true (orUndo exitRaised (.done (.ok (.ref ref))))

/-- `_insert_event_rows`, from the index `idx` on, and the way out. -/
def insertEventRows (runId : String) (seq startOffset : Nat) : List RuntimeEvent → Nat → Method
  | [], _ => exitReturned (commitRef seq)
  | event :: rest, idx =>
    orElse exitRaised (fun payload =>
      let row := { BundleDb.eventRow runId seq startOffset idx event with payloadJson := payload }
      .exec true (own (BundleDb.insertEvent row)) [.event row]
        (orElse exitRaised (fun _ => insertEventRows runId seq startOffset rest (idx + 1))))
      (serialized Value.sortPayload event.payloadJson)

/-- `append_action_commit`. Only the insertions open a transaction. -/
def appendActionCommit (commit : ActionCommit) : Method :=
  if commit.events.isEmpty then .done (.error emptyCommit)
  else
    .exec false (own (BundleDb.selectMaxOffset commit.runId)) [] (orElse exitRaised (fun last =>
      .exec true (own (BundleDb.insertCommit commit)) [] (orElse exitRaised (fun seq =>
        insertEventRows commit.runId seq (last + 1) commit.events 0))))

end EventLog

namespace DedupeStore

/-- The table of the store in the file of the pool. -/
def table : TableIn BundleDb := { bundleTable with lostUpdate := sqliteTable.lostUpdate }

/-- `ROLLBACK` in the handler of an exception; without `suppress` its own error is raised. -/
def undo (quiet : Bool) (e : PyError) : Method :=
  .rollback false (fun failed => .done (.error (if quiet then e else failed.getD e)))

/-- The answer of a method that gets to its `COMMIT` or, for a duplicate, its `ROLLBACK`. -/
def committed (quiet : Bool) (a : LedgerAnswer) : Method :=
  .commit false (orUndo (undo quiet) (.done (.ok (.ledger a))))

def rolledBack (quiet : Bool) (a : LedgerAnswer) : Method :=
  .rollback false (orUndo (undo quiet) (.done (.ok (.ledger a))))

/-- `get`: inside a transaction through the write connection; outside of one a pooled read
connection shows the same rows. -/
def select (key : String) (next : Except PyError (Option DedupeRecord) → Method) : Method :=
  .exec false (table.selectRow key) [] next

/-- What a reservation does with the record it found, or with none. -/
def reserveFound (quiet : Bool) (record : DedupeRecord) : Option DedupeRecord → Method
  | some existing => rolledBack quiet (.reservation (.duplicateOf existing))
  | none =>
    .exec true (table.insertRow record) [.record record.dispatchIdempotencyKey record]
      (orElse (undo quiet) (fun _ => committed quiet (.reservation .granted)))

/-- A reservation; an error of its `BEGIN` is not handled. -/
def reserveAs (envelope : IdempotencyEnvelope) (state : DedupeState) (peerOperationId : Option String) :
    Method :=
  let quiet : Bool := state = .dispatched
  .begin (orUndo (fun e => .done (.error e)) (select envelope.dispatchIdempotencyKey
    (orElse (undo quiet) (reserveFound quiet (envelope.record state peerOperationId)))))

/-- The row is moved, and it must be there. -/
def markFound (m : Mark) (key : String) (peerOperationId externalAckRef : Option String) :
    Option DedupeRecord → Method
  | none => undo true (unknownKey key)
  | some record =>
    if record.state ∈ m.allowed then
      .exec true (table.updateRow key m.target (Text.orElse peerOperationId record.peerOperationId)
          (Text.orElse externalAckRef record.externalAckRef))
        [.record key (record.moved m.target peerOperationId externalAckRef)]
        (orElse (undo true) (fun rowcount =>
          if rowcount = 1 then committed true .done else undo true (table.lostUpdate key m.target)))
    else undo true (cannotTransition record.state m.target)

/-- A mark; an error of its `BEGIN` is handled like any other, with a `ROLLBACK`. -/
def mark (m : Mark) (key : String) (peerOperationId externalAckRef : Option String) : Method :=
  .begin (orUndo (undo true) (select key
    (orElse (undo true) (markFound m key peerOperationId externalAckRef))))

def get (key : String) : Method :=
  select key (orElse (fun e => .done (.error e)) (fun found => .done (.ok (.ledger (.record found)))))

def perform : LedgerCall → Method
  | .reserve e => reserveAs e .reserved e.peerOperationId
  | .reserveAndDispatch e peer => reserveAs e .dispatched (Text.orElse peer e.peerOperationId)
  | .markDispatched k peer => mark .dispatched k peer none
  | .markAcknowledged k ack => mark .acknowledged k none ack
  | .markSucceeded k ack => mark .succeeded k none ack
  | .markUnknownEffect k => mark .unknownEffect k none none
  | .get k => get k

end DedupeStore

def program : PoolCall → Method
  | .append commit => EventLog.appendActionCommit commit
  | .ledger call => DedupeStore.perform call

def errors : Script.TxErrors PyError where
  nested := ⟨.operationalError, "cannot start a transaction within a transaction"⟩
  noCommit := ⟨.operationalError, "cannot commit - no transaction is active"⟩
  noRollback := ⟨.operationalError, "cannot rollback - no transaction is active"⟩

abbrev SharedStores := SharedConn PoolUser PyError BundleDb Written PoolCall PoolAnswer

/-- Log and store on the file of a pool, after some steps of both. -/
def shared (d : BundleDb) (steps : List (SharedStep PoolUser PyError PoolCall)) : SharedStores :=
  run (SharedConn.next errors PoolCall.user program) (.init d) steps

/-! ### A method on a connection of its own -/

/-- How a call ended. -/
def ended {α : Type} : EStateM.Result PyError (Conn BundleDb) α → Except PyError α × Conn BundleDb
  | .ok a c => (.ok a, c)
  | .error e c => (.error e, c)

/-- The methods as they are when nobody else has the connection. -/
def method : PoolCall → Call PyError (Conn BundleDb) PoolAnswer
  | .append commit => .ref <$> SQLiteKernelRuntimeEventLog.appendActionCommit commit
  | .ledger c => .ledger <$> Dedupe.perform DedupeStore.table.methods.port c

namespace EventLog
open SQLiteKernelRuntimeEventLog

/-- The rows alone: inside the transaction they end as the method does there. -/
theorem insertEventRows_alone (runId : String) (seq startOffset : Nat) (d₀ : BundleDb)
    (events : List RuntimeEvent) (idx : Nat) (d : BundleDb) :
    ∃ d', (SQLiteKernelRuntimeEventLog.insertEventRows runId seq startOffset events idx
          ⟨d₀, some d, []⟩ = .ok () ⟨d₀, some d', []⟩ ∧
        (insertEventRows runId seq startOffset events idx).alone errors ⟨d₀, some d, []⟩ =
          (.ok (.ref (commitRef seq)), .idle d' [])) ∨
      ∃ e, SQLiteKernelRuntimeEventLog.insertEventRows runId seq startOffset events idx
          ⟨d₀, some d, []⟩ = .error e ⟨d₀, some d', []⟩ ∧
        (insertEventRows runId seq startOffset events idx).alone errors ⟨d₀, some d, []⟩ =
          (.error e, .idle d₀ []) := by
  induction events generalizing idx d with
  | nil => exact ⟨d, .inl ⟨rfl, rfl⟩⟩
  | cons event rest ih =>
    simp only [insertEventRows, SQLiteKernelRuntimeEventLog.insertEventRows, Call.bind_apply,
      serializePayload]
    cases serialized Value.sortPayload event.payloadJson with
    | error e => exact ⟨d, .inr ⟨e, rfl, rfl⟩⟩
    | ok payload =>
      simp only [Call.pure_apply]
      simp only [orElse, Script.alone_exec, Conn.exec_open, Conn.view, Option.getD_some]
      cases own (BundleDb.insertEvent
        { BundleDb.eventRow runId seq startOffset idx event with payloadJson := payload }) d with
      | error e => exact ⟨d, .inr ⟨e, rfl, rfl⟩⟩
      | ok r => exact ih (idx + 1) r.2

theorem appendActionCommit_alone (commit : ActionCommit) (d : BundleDb) :
    (appendActionCommit commit).alone errors (.idle d []) =
      ended (method (.append commit) (.idle d [])) := by
  simp only [method, Call.map_apply]
  unfold appendActionCommit SQLiteKernelRuntimeEventLog.appendActionCommit
  cases hempty : commit.events.isEmpty with
  | true => rfl
  | false =>
    have hne : commit.events ≠ [] := by
      intro h
      rw [h] at hempty
      cases hempty
    obtain ⟨d₁, hins⟩ := BundleDb.insertCommit_ok hne d
    have hins' := own_ok _ hins
    have hload : loadNextOffset commit.runId (.idle d []) =
        .ok (d.maxOffset commit.runId + 1) (.idle d []) := rfl
    simp only [Bool.false_eq_true, if_false, Call.bind_apply, hload]
    obtain ⟨d', ⟨hrows, halone⟩ | ⟨e, hrows, halone⟩⟩ := insertEventRows_alone commit.runId
      (d.lastSequence + 1) (d.maxOffset commit.runId + 1) d commit.events 0 d₁
    · have hbody : appendBody commit (d.maxOffset commit.runId + 1) ⟨d, some d, []⟩ =
          .ok (.commit (commitRef (d.lastSequence + 1))) ⟨d, some d', []⟩ := by
        simp only [appendBody, insertCommitRow, Call.bind_apply, Conn.exec_open, hins', hrows,
          Call.pure_apply]
      rw [Conn.guardedTransaction_idle busy hbody, Script.alone_exec]
      show (Script.exec true _ [] _).alone errors _ = _
      rw [Script.alone_exec]
      show Script.aloneAfter errors true _ _ (own (BundleDb.insertCommit commit) d) = _
      rw [hins']
      exact halone
    · have hbody : appendBody commit (d.maxOffset commit.runId + 1) ⟨d, some d, []⟩ =
          .error e ⟨d, some d', []⟩ := by
        simp only [appendBody, insertCommitRow, Call.bind_apply, Conn.exec_open, hins', hrows]
      rw [Conn.guardedTransaction_idle_error busy hbody, Script.alone_exec]
      show (Script.exec true _ [] _).alone errors _ = _
      rw [Script.alone_exec]
      show Script.aloneAfter errors true _ _ (own (BundleDb.insertCommit commit) d) = _
      rw [hins']
      exact halone

end EventLog

namespace DedupeStore

theorem reserveAs_alone (e : IdempotencyEnvelope) (state : DedupeState) (peer : Option String)
    (d : BundleDb) : (reserveAs e state peer).alone errors (.idle d []) =
      ended ((PoolAnswer.ledger <$> LedgerAnswer.reservation <$> table.reserveAs e state peer) (.idle d [])) := by
  have hselect : table.get e.dispatchIdempotencyKey ⟨d, some d, []⟩ =
      .ok (table.ledger d e.dispatchIdempotencyKey) ⟨d, some d, []⟩ := table.get_open _ d d
  have halone : (reserveAs e state peer).alone errors (.idle d []) =
      (reserveFound (state = .dispatched) (e.record state peer)
        (table.ledger d e.dispatchIdempotencyKey)).alone errors ⟨d, some d, []⟩ := rfl
  rw [halone, Call.map_apply, Call.map_apply, TableIn.reserveAs]
  cases hfound : table.ledger d e.dispatchIdempotencyKey with
  | some existing =>
    have hbody : table.reserveBody e state peer ⟨d, some d, []⟩ =
        .ok (.rollback (.duplicateOf existing)) ⟨d, some d, []⟩ := by
      simp only [TableIn.reserveBody, Call.bind_apply, hselect, hfound, Call.pure_apply]
    rw [Conn.transaction_idle busy _ hbody]
    rfl
  | none =>
    rw [reserveFound, Script.alone_exec]
    show Script.aloneAfter errors true _ _ (table.insertRow (e.record state peer) d) = _
    cases hins : table.insertRow (e.record state peer) d with
    | error err =>
      have hbody : table.reserveBody e state peer ⟨d, some d, []⟩ = .error err ⟨d, some d, []⟩ := by
        simp only [TableIn.reserveBody, Call.bind_apply, hselect, hfound, Conn.exec_open, hins]
      rw [Conn.transaction_idle_error busy _ hbody]
      cases decide (state = .dispatched) <;> rfl
    | ok r =>
      have hbody : table.reserveBody e state peer ⟨d, some d, []⟩ =
          .ok (.commit .granted) ⟨d, some r.2, []⟩ := by
        simp only [TableIn.reserveBody, Call.bind_apply, hselect, hfound, Conn.exec_open, hins,
          Call.pure_apply]
      rw [Conn.transaction_idle busy _ hbody]
      rfl

theorem mark_alone (m : Mark) (key : String) (peer ack : Option String) (d : BundleDb) :
    (mark m key peer ack).alone errors (.idle d []) =
      ended ((PoolAnswer.ledger <$> (fun _ => LedgerAnswer.done) <$> table.mark m key peer ack)
        (.idle d [])) := by
  have hselect : table.get key ⟨d, some d, []⟩ = .ok (table.ledger d key) ⟨d, some d, []⟩ :=
    table.get_open _ d d
  have halone : (mark m key peer ack).alone errors (.idle d []) =
      (markFound m key peer ack (table.ledger d key)).alone errors ⟨d, some d, []⟩ := rfl
  rw [halone, Call.map_apply, Call.map_apply, TableIn.mark]
  cases hfound : table.ledger d key with
  | none =>
    have hbody : table.markBody m key peer ack ⟨d, some d, []⟩ =
        .error (unknownKey key) ⟨d, some d, []⟩ := by
      simp only [TableIn.markBody, Call.bind_apply, hselect, hfound, Call.throw_apply]
    rw [Conn.guardedTransaction_idle_error busy hbody]
    rfl
  | some record =>
    rw [markFound]
    by_cases hallowed : record.state ∈ m.allowed
    · obtain ⟨d', hupd, _⟩ := table.updateRow_ok hfound m.target peer ack
      have hbody : table.markBody m key peer ack ⟨d, some d, []⟩ = .ok (.commit ()) ⟨d, some d', []⟩ := by
        simp only [TableIn.markBody, Call.bind_apply, hselect, hfound, hallowed, if_true,
          Conn.exec_open, hupd, Call.pure_apply]
      rw [Conn.guardedTransaction_idle busy hbody, if_pos hallowed, Script.alone_exec]
      show Script.aloneAfter errors true _ _ (table.updateRow key m.target
        (Text.orElse peer record.peerOperationId) (Text.orElse ack record.externalAckRef) d) = _
      rw [hupd]
      rfl
    · have hbody : table.markBody m key peer ack ⟨d, some d, []⟩ =
          .error (cannotTransition record.state m.target) ⟨d, some d, []⟩ := by
        simp only [TableIn.markBody, Call.bind_apply, hselect, hfound, hallowed, if_false,
          Call.throw_apply]
      rw [Conn.guardedTransaction_idle_error busy hbody, if_neg hallowed]
      rfl

end DedupeStore

/-- **A method that is left alone is the method**: its statements, one after the other on a
connection without a transaction, end as it does. -/
theorem program_alone (call : PoolCall) (d : BundleDb) :
    (program call).alone errors (.idle d []) = ended (method call (.idle d [])) := by
  cases call with
  | append commit => exact EventLog.appendActionCommit_alone commit d
  | ledger c =>
    cases c with
    | reserve e => exact DedupeStore.reserveAs_alone _ _ _ d
    | reserveAndDispatch e peer => exact DedupeStore.reserveAs_alone _ _ _ d
    | markDispatched k peer => exact DedupeStore.mark_alone _ _ _ _ d
    | markAcknowledged k ack => exact DedupeStore.mark_alone _ _ _ _ d
    | markSucceeded k ack => exact DedupeStore.mark_alone _ _ _ _ d
    | markUnknownEffect k => exact DedupeStore.mark_alone _ _ _ _ d
    | get k => rfl

/-- So does a call that the other user leaves alone, whatever has been before. -/
theorem call_undisturbed (s : SharedStores) (call : PoolCall) {d : BundleDb} (hconn : s.conn = .idle d [])
    (hfree : s.active call.user = none) : ∃ n upto,
      (run (SharedConn.next errors PoolCall.user program) s
          (.call call :: List.replicate n (.step call.user none))).conn =
        (ended (method call (.idle d []))).2 ∧
      (run (SharedConn.next errors PoolCall.user program) s
          (.call call :: List.replicate n (.step call.user none))).answers =
        s.answers ++ [⟨call, s.trace.length, upto, (ended (method call (.idle d []))).1⟩] := by
  obtain ⟨n, hc, upto, ha⟩ := SharedConn.call_ends errors program hfree
  rw [← program_alone, ← hconn]
  exact ⟨n, upto, hc, ha⟩

/-! ### The parts of the file -/

/-- The rows of the log. -/
def logPart : Part BundleDb Written (List EventRow) EventRow where
  of := fun d => d.events.rows
  pick := fun w =>
    match w with
    | .event row => some row
    | .record _ _ => none
  put := fun rows row => rows ++ [row]

/-- The records of the store. -/
def storePart : Part BundleDb Written Ledger (String × DedupeRecord) where
  of := DedupeStore.table.ledger
  pick := fun w =>
    match w with
    | .event _ => none
    | .record key r => some (key, r)
  put := fun L r => L.put r.1 r.2

/-- `COALESCE(MAX(commit_offset), 0)` over the rows of a run. -/
def maxOffset (rows : List EventRow) (runId : String) : Nat :=
  ((rows.filter (fun r => r.streamRunId = runId)).map EventRow.commitOffset).max?.getD 0

/-- The rows of a commit, at the next offsets of its run. -/
def commitRows (commit : ActionCommit) (seq : Nat) (rows : List EventRow) : List EventRow :=
  SharedEventLog.rowsFrom commit.runId seq (maxOffset rows commit.runId + 1)
    (commit.events.map (withPayload Value.sortPayload)) 0

/-- An append writes its rows in order, and all of them before it returns. -/
def Appends (call : PoolCall) (rows : List EventRow) (wrote : List EventRow)
    (result : Except PyError PoolAnswer) : Prop :=
  ∀ commit, call = .append commit → ∃ seq, wrote <+: commitRows commit seq rows ∧
    ∀ ref, result = .ok (.ref ref) → ref = commitRef seq ∧ wrote = commitRows commit seq rows

/-- A call of the store that answers, answers and writes as the ledger does. -/
def Performs (call : PoolCall) (L : Ledger) (wrote : List (String × DedupeRecord))
    (result : Except PyError PoolAnswer) : Prop :=
  ∀ c a, call = .ledger c → result = .ok (.ledger a) →
    L.answer c = (.ok a, wrote.foldl storePart.put L) ∧ wrote.length ≤ 1

/-! ### The log -/

namespace EventLog
open SQLiteKernelRuntimeEventLog

theorem ok_of_own {α : Type} {statement : BundleDb → Except PyError (α × BundleDb)} {d : BundleDb}
    {r : α × BundleDb} (h : own statement d = .ok r) : statement d = .ok r := by
  unfold own at h
  cases hs : statement d with
  | error e => simp [hs, Except.mapError] at h
  | ok r' =>
    rw [hs] at h
    exact h

theorem serialized_ok {event : RuntimeEvent} {payload : Option Payload}
    (h : serialized Value.sortPayload event.payloadJson = .ok payload) :
    payload = (withPayload Value.sortPayload event).payloadJson := (serialized_ok_iff.mp h).1

section
variable {rows : List EventRow} {Q : List EventRow → Except PyError PoolAnswer → Prop}
  {wrote : List EventRow} {dirty : Bool}

theorem exitRaised_sound {e : PyError} (h : Q wrote (.error e)) :
    (exitRaised e).Sound logPart rows Q wrote dirty := fun _ => ⟨rfl, h⟩

/-- The rows are inserted one after the other: `all` in the end. -/
theorem insertEventRows_sound {runId : String} {seq startOffset : Nat} (all : List EventRow)
    (herr : ∀ wrote e, wrote <+: all → Q wrote (.error e)) (hok : Q all (.ok (.ref (commitRef seq))))
    (events : List RuntimeEvent) (idx : Nat)
    (h : wrote ++ SharedEventLog.rowsFrom runId seq startOffset
      (events.map (withPayload Value.sortPayload)) idx = all) :
    (insertEventRows runId seq startOffset events idx).Sound logPart rows Q wrote dirty := by
  induction events generalizing idx wrote dirty with
  | nil =>
    have hall : wrote = all := by simpa [SharedEventLog.rowsFrom] using h
    subst hall
    exact ⟨fun e => exitRaised_sound (herr wrote e ⟨[], List.append_nil _⟩), rfl, hok⟩
  | cons event rest ih =>
    have hpre : wrote <+: all := ⟨_, h⟩
    rw [List.map_cons, SharedEventLog.rowsFrom_cons] at h
    simp only [insertEventRows]
    cases hp : serialized Value.sortPayload event.payloadJson with
    | error e => exact exitRaised_sound (herr wrote e hpre)
    | ok payload =>
      refine Script.Sound.exec (fun hw => absurd hw (by decide)) ?_
        (fun e => exitRaised_sound (herr wrote e hpre))
      intro d b d' _ hins
      refine ⟨(BundleDb.eventAdded_of_insert (ok_of_own hins)).1, ih (idx + 1) ?_⟩
      rw [serialized_ok hp, ← h]
      simp only [List.append_assoc]
      rfl

end

theorem appendActionCommit_sound (commit : ActionCommit) (rows : List EventRow) :
    (appendActionCommit commit).Sound logPart rows (Appends (.append commit) rows) [] false := by
  have herr : ∀ seq wrote e, wrote <+: commitRows commit seq rows →
      Appends (.append commit) rows wrote (.error e) := by
    intro seq wrote e hpre c hc
    cases hc
    exact ⟨seq, hpre, fun ref href => by cases href⟩
  have hnone : ∀ e, Appends (.append commit) rows [] (.error e) :=
    fun e => herr 0 [] e (List.nil_prefix)
  unfold appendActionCommit
  split
  · exact ⟨rfl, hnone emptyCommit⟩
  · refine Script.Sound.exec (fun _ => rfl) ?_ (fun e => exitRaised_sound (hnone e))
    intro d last d' hbase hsel
    have hsel' := ok_of_own hsel
    simp only [BundleDb.selectMaxOffset, Except.ok.injEq, Prod.mk.injEq] at hsel'
    obtain ⟨hlast, rfl⟩ := hsel'
    have hrows : d.events.rows = rows := hbase rfl
    refine ⟨rfl, Script.Sound.exec (fun hw => absurd hw (by decide)) ?_
      (fun e => exitRaised_sound (hnone e))⟩
    intro d₁ seq d₂ _ hins
    have hadded := BundleDb.commitAdded_of_insert (ok_of_own hins)
    refine ⟨congrArg (fun t => t.rows) hadded.events, ?_⟩
    refine insertEventRows_sound (commitRows commit seq rows) (herr seq) ?_ commit.events 0 ?_
    · intro c hc
      cases hc
      exact ⟨seq, List.prefix_rfl, fun ref href => by cases href; exact ⟨rfl, rfl⟩⟩
    · rw [← hlast, List.nil_append, commitRows, ← hrows]
      rfl

theorem insertEventRows_foreign (runId : String) (seq startOffset : Nat) (events : List RuntimeEvent)
    (idx : Nat) : (insertEventRows runId seq startOffset events idx).Foreign storePart := by
  have hraised : ∀ e, (exitRaised e).Foreign storePart := fun _ _ => trivial
  induction events generalizing idx with
  | nil =>
    intro r
    cases r with
    | some e => exact hraised e
    | none => exact trivial
  | cons event rest ih =>
    simp only [insertEventRows]
    cases serialized Value.sortPayload event.payloadJson with
    | error e => exact hraised e
    | ok payload =>
      refine Script.Foreign.exec rfl (fun d b d' hins => ?_) (fun r => ?_)
      · have hd := (BundleDb.eventAdded_of_insert (ok_of_own hins)).2.2
        exact congrArg Table.select hd
      · cases r with
        | error e => exact hraised e
        | ok b => exact ih (idx + 1)

theorem appendActionCommit_foreign (commit : ActionCommit) :
    (appendActionCommit commit).Foreign storePart := by
  have hraised : ∀ e, (exitRaised e).Foreign storePart := fun _ _ => trivial
  unfold appendActionCommit
  split
  · exact trivial
  · refine Script.Foreign.exec rfl (fun d b d' hsel => ?_) (fun r => ?_)
    · have hsel' := ok_of_own hsel
      simp only [BundleDb.selectMaxOffset, Except.ok.injEq, Prod.mk.injEq] at hsel'
      rw [hsel'.2]
    · cases r with
      | error e => exact hraised e
      | ok last =>
        refine Script.Foreign.exec rfl (fun d b d' hins => ?_) (fun r => ?_)
        · exact congrArg Table.select (BundleDb.commitAdded_of_insert (ok_of_own hins)).dedupe
        · cases r with
          | error e => exact hraised e
          | ok seq => exact insertEventRows_foreign _ _ _ _ _

end EventLog

/-! ### The store -/

namespace DedupeStore
variable {L : Ledger} {wrote : List (String × DedupeRecord)} {dirty : Bool}

/-- An error may come after anything. -/
theorem performs_error (c : LedgerCall) (e : PyError) : Performs (.ledger c) L wrote (.error e) :=
  fun _ _ _ h => nomatch h

theorem performs_ok {c : LedgerCall} {a : LedgerAnswer}
    (h : L.answer c = (.ok a, wrote.foldl storePart.put L)) (hlen : wrote.length ≤ 1) :
    Performs (.ledger c) L wrote (.ok (.ledger a)) := by
  intro c' a' hc ha
  cases hc
  cases ha
  exact ⟨h, hlen⟩

theorem undo_sound (c : LedgerCall) (quiet : Bool) (e : PyError) :
    (undo quiet e).Sound storePart L (Performs (.ledger c) L) wrote dirty :=
  fun _ => ⟨rfl, performs_error c _⟩

theorem committed_sound {c : LedgerCall} {a : LedgerAnswer} (quiet : Bool)
    (h : L.answer c = (.ok a, wrote.foldl storePart.put L)) (hlen : wrote.length ≤ 1) :
    (committed quiet a).Sound storePart L (Performs (.ledger c) L) wrote dirty :=
  ⟨undo_sound c quiet, rfl, performs_ok h hlen⟩

theorem rolledBack_sound {c : LedgerCall} {a : LedgerAnswer} (quiet : Bool) (h : L.answer c = (.ok a, L)) :
    (rolledBack quiet a).Sound storePart L (Performs (.ledger c) L) [] dirty := by
  intro r
  cases r with
  | some e => exact undo_sound c quiet e
  | none => exact ⟨rfl, performs_ok h (Nat.zero_le _)⟩

/-- What a select finds is what was there when the method began. -/
theorem select_sound {c : LedgerCall} {key : String} {next : Except PyError (Option DedupeRecord) → Method}
    (herr : ∀ e, (next (.error e)).Sound storePart L (Performs (.ledger c) L) [] dirty)
    (hok : (next (.ok (L key))).Sound storePart L (Performs (.ledger c) L) [] dirty) :
    (select key next).Sound storePart L (Performs (.ledger c) L) [] dirty := by
  refine Script.Sound.exec (fun _ => rfl) ?_ herr
  intro d found d' hbase hsel
  simp only [TableIn.selectRow, Except.ok.injEq, Prod.mk.injEq] at hsel
  obtain ⟨hfound, rfl⟩ := hsel
  have hL : table.ledger d = L := hbase rfl
  refine ⟨rfl, ?_⟩
  rw [← hfound]
  show Script.Sound _ _ _ (next (.ok (table.ledger d key))) _ _
  rw [hL]
  simpa using hok

theorem reserveAs_sound {c : LedgerCall} {e : IdempotencyEnvelope} {state : DedupeState}
    {peer : Option String} (hc : L.answer c = Ledger.reserved (L.reserve e state peer)) :
    (reserveAs e state peer).Sound storePart L (Performs (.ledger c) L) [] false := by
  refine ⟨fun err => ⟨rfl, performs_error c err⟩, select_sound (undo_sound c _) ?_⟩
  show Script.Sound _ _ _ (reserveFound _ _ (L e.dispatchIdempotencyKey)) _ _
  cases hfound : L e.dispatchIdempotencyKey with
  | some existing =>
    refine rolledBack_sound _ ?_
    rw [hc, Ledger.reserve_present hfound]
    rfl
  | none =>
    refine Script.Sound.exec (fun hw => nomatch hw) ?_ (undo_sound c _)
    intro d b d' hbase hins
    have hL : table.ledger d = L := hbase rfl
    refine ⟨table.ledger_insert hins, committed_sound _ ?_ (Nat.le_refl 1)⟩
    rw [hc, Ledger.reserve, hfound]
    rfl

theorem mark_sound {c : LedgerCall} {m : Mark} {key : String} {peer ack : Option String}
    (hc : L.answer c = L.marked (L.mark m key peer ack)) :
    (mark m key peer ack).Sound storePart L (Performs (.ledger c) L) [] false := by
  refine ⟨undo_sound c true, select_sound (undo_sound c true) ?_⟩
  show Script.Sound _ _ _ (markFound m key peer ack (L key)) _ _
  cases hfound : L key with
  | none => exact undo_sound c true _
  | some record =>
    rw [markFound]
    split
    · rename_i hallowed
      refine Script.Sound.exec (fun hw => nomatch hw) ?_ (undo_sound c true)
      intro d n d' hbase hupd
      have hL : table.ledger d = L := hbase rfl
      obtain ⟨d'', hd'', hput⟩ := table.updateRow_ok (d := d) (hL ▸ hfound) m.target peer ack
      rw [hd''] at hupd
      simp only [Except.ok.injEq, Prod.mk.injEq] at hupd
      obtain ⟨rfl, rfl⟩ := hupd
      refine ⟨hput, committed_sound true ?_ (Nat.le_refl 1)⟩
      rw [hc, Ledger.mark, hfound]
      simp only [hallowed, if_true]
      rfl
    · exact undo_sound c true _

theorem perform_sound (c : LedgerCall) (L : Ledger) :
    (perform c).Sound storePart L (Performs (.ledger c) L) [] false := by
  cases c with
  | reserve e => exact reserveAs_sound rfl
  | reserveAndDispatch e peer => exact reserveAs_sound rfl
  | markDispatched k peer => exact mark_sound rfl
  | markAcknowledged k ack => exact mark_sound rfl
  | markSucceeded k ack => exact mark_sound rfl
  | markUnknownEffect k => exact mark_sound rfl
  | get k =>
    refine select_sound (fun e => ⟨rfl, performs_error _ e⟩) ⟨rfl, performs_ok rfl (Nat.zero_le _)⟩

theorem undo_foreign (quiet : Bool) (e : PyError) : (undo quiet e).Foreign logPart := fun _ => trivial

theorem committed_foreign (quiet : Bool) (a : LedgerAnswer) : (committed quiet a).Foreign logPart := by
  intro r
  cases r with
  | some e => exact undo_foreign quiet e
  | none => exact trivial

theorem rolledBack_foreign (quiet : Bool) (a : LedgerAnswer) : (rolledBack quiet a).Foreign logPart := by
  intro r
  cases r with
  | some e => exact undo_foreign quiet e
  | none => exact trivial

theorem select_foreign {key : String} {next : Except PyError (Option DedupeRecord) → Method}
    (h : ∀ r, (next r).Foreign logPart) : (select key next).Foreign logPart := by
  refine Script.Foreign.exec rfl (fun d b d' hsel => ?_) h
  simp only [TableIn.selectRow, Except.ok.injEq, Prod.mk.injEq] at hsel
  rw [hsel.2]

theorem events_insertRow {r : DedupeRecord} {d d' : BundleDb} (h : table.insertRow r d = .ok ((), d')) :
    d'.events = d.events := by
  unfold TableIn.insertRow at h
  split at h
  · split at h
    · simp only [Except.ok.injEq, Prod.mk.injEq, true_and] at h
      rw [← h]
      rfl
    · cases h
  · cases h

theorem reserveAs_foreign (e : IdempotencyEnvelope) (state : DedupeState) (peer : Option String) :
    (reserveAs e state peer).Foreign logPart := by
  intro r
  cases r with
  | some err => exact trivial
  | none =>
    refine select_foreign (fun r => ?_)
    cases r with
    | error err => exact undo_foreign _ err
    | ok found =>
      cases found with
      | some existing => exact rolledBack_foreign _ _
      | none =>
        refine Script.Foreign.exec rfl (fun d b d' hins => ?_) (fun r => ?_)
        · exact congrArg (fun t => t.rows) (events_insertRow hins)
        · cases r with
          | error err => exact undo_foreign _ err
          | ok b => exact committed_foreign _ _

theorem mark_foreign (m : Mark) (key : String) (peer ack : Option String) :
    (mark m key peer ack).Foreign logPart := by
  intro r
  cases r with
  | some err => exact undo_foreign true err
  | none =>
    refine select_foreign (fun r => ?_)
    cases r with
    | error err => exact undo_foreign true err
    | ok found =>
      cases found with
      | none => exact undo_foreign true _
      | some record =>
        simp only [orElse, markFound]
        split
        · refine Script.Foreign.exec rfl (fun d b d' hupd => ?_) (fun r => ?_)
          · simp only [TableIn.updateRow, Except.ok.injEq, Prod.mk.injEq] at hupd
            rw [← hupd.2]
            rfl
          · cases r with
            | error err => exact undo_foreign true err
            | ok n =>
              simp only [orElse]
              split
              · exact committed_foreign true _
              · exact undo_foreign true _
        · exact undo_foreign true _

theorem perform_foreign (c : LedgerCall) : (perform c).Foreign logPart := by
  cases c with
  | reserve e => exact reserveAs_foreign _ _ _
  | reserveAndDispatch e peer => exact reserveAs_foreign _ _ _
  | markDispatched k peer => exact mark_foreign _ _ _ _
  | markAcknowledged k ack => exact mark_foreign _ _ _ _
  | markSucceeded k ack => exact mark_foreign _ _ _ _
  | markUnknownEffect k => exact mark_foreign _ _ _ _
  | get k =>
    refine select_foreign (fun r => ?_)
    cases r with
    | error err => exact trivial
    | ok found => exact trivial

end DedupeStore

/-! ### Every interleaving -/

theorem log_told (d : BundleDb) (steps : List (SharedStep PoolUser PyError PoolCall)) :
    SharedConn.Told logPart PoolCall.user .eventLog Appends d.events.rows (shared d steps) := by
  refine SharedConn.answers_told ?_ ?_ d steps
  · intro call rows hcall
    cases call with
    | append commit => exact EventLog.appendActionCommit_sound commit rows
    | ledger c => cases hcall
  · intro call hcall
    cases call with
    | append commit => exact absurd rfl hcall
    | ledger c => exact DedupeStore.perform_foreign c

theorem store_told (d : BundleDb) (steps : List (SharedStep PoolUser PyError PoolCall)) :
    SharedConn.Told storePart PoolCall.user .dedupeStore Performs (DedupeStore.table.ledger d) (shared d steps) := by
  refine SharedConn.answers_told ?_ ?_ d steps
  · intro call L hcall
    cases call with
    | append commit => cases hcall
    | ledger c => exact DedupeStore.perform_sound c L
  · intro call hcall
    cases call with
    | append commit => exact EventLog.appendActionCommit_foreign commit
    | ledger c => exact absurd rfl hcall

/-- The committed rows of the log when the trace was `n` long. -/
def rowsAt (d : BundleDb) (s : SharedStores) (n : Nat) : List EventRow :=
  logPart.after d.events.rows (s.trace.take n)

/-- The committed records of the store then. -/
def ledgerAt (d : BundleDb) (s : SharedStores) (n : Nat) : Ledger :=
  storePart.after (DedupeStore.table.ledger d) (s.trace.take n)

/-- What happened on the connection while a method ran. -/
def beside (s : SharedStores) (a : Answer PyError PoolCall PoolAnswer) : List (TxEvent Written) :=
  SharedConn.during s.trace a.began a.upto

theorem foldl_put_rows (rows added : List EventRow) : added.foldl logPart.put rows = rows ++ added := by
  induction added generalizing rows with
  | nil => exact (List.append_nil rows).symm
  | cons row rest ih =>
    rw [List.foldl_cons, ih]
    exact List.append_assoc rows [row] rest

/-- What an acknowledged append leaves: of its rows, in order, those it inserted before a
commit. These stay. -/
structure AppendLeft (d : BundleDb) (s : SharedStores) (a : Answer PyError PoolCall PoolAnswer)
    (commit : ActionCommit) (ref : String) : Prop where
  wrote : ∃ seq, ref = commitRef seq ∧
    logPart.writes (beside s a) = commitRows commit seq (rowsAt d s a.began)
  left : rowsAt d s a.upto = rowsAt d s a.began ++ (logPart.kept (beside s a)).durable
  complete_iff : rowsAt d s a.upto = rowsAt d s a.began ++ logPart.writes (beside s a) ↔
    ¬ logPart.Struck (beside s a)
  stays : rowsAt d s a.upto <+: s.conn.committed.events.rows

def AppendsLeft (d : BundleDb) (s : SharedStores) : Prop :=
  ∀ a ∈ s.answers, ∀ commit ref, a.call = .append commit → a.result = .ok (.ref ref) →
    AppendLeft d s a commit ref

/-- **An acknowledged append is complete exactly when no rollback found its rows pending**, in
every interleaving of its statements with those of the store. -/
theorem appends_left (d : BundleDb) (steps : List (SharedStep PoolUser PyError PoolCall)) :
    AppendsLeft d (shared d steps) := by
  intro a ha commit ref hcall hresult
  have htold := log_told d steps
  have hanswer := htold.answers a ha (by rw [hcall]; rfl)
  obtain ⟨seq, _, hwrote⟩ := hanswer.result commit hcall
  have hleft : rowsAt d (shared d steps) a.upto =
      rowsAt d (shared d steps) a.began ++ (logPart.kept (beside (shared d steps) a)).durable := by
    rw [← foldl_put_rows]
    exact hanswer.left
  refine ⟨⟨seq, hwrote ref hresult⟩, hleft, ?_, ?_⟩
  · rw [hleft, List.append_right_inj]
    exact logPart.durable_eq_iff hanswer.settled
  · have hcommitted : (shared d steps).conn.committed.events.rows =
        d.events.rows ++ (logPart.kept (shared d steps).trace).durable := by
      rw [← foldl_put_rows]
      exact htold.fits.committed
    have hdurable := logPart.durable_prefix ((shared d steps).trace.take a.upto)
      ((shared d steps).trace.drop a.upto)
    rw [List.take_append_drop] at hdurable
    rw [hcommitted, rowsAt, Part.after, foldl_put_rows]
    exact (List.prefix_append_right_inj _).mpr hdurable

/-- What a call of the store that has answered leaves: the ledger's answer to what was
committed when it began, and its write if that was committed. -/
structure CallLeft (d : BundleDb) (s : SharedStores) (a : Answer PyError PoolCall PoolAnswer)
    (c : LedgerCall) (answer : LedgerAnswer) : Prop where
  answers : ((ledgerAt d s a.began).answer c).1 = .ok answer
  kept : ¬ storePart.Struck (beside s a) → ledgerAt d s a.upto = ((ledgerAt d s a.began).answer c).2
  lost : storePart.Struck (beside s a) → ledgerAt d s a.upto = ledgerAt d s a.began

def CallsLeft (d : BundleDb) (s : SharedStores) : Prop :=
  ∀ a ∈ s.answers, ∀ c answer, a.call = .ledger c → a.result = .ok (.ledger answer) →
    CallLeft d s a c answer

/-- **A call of the store that answers has done what the ledger does exactly when no rollback
found its write pending**; else it has done nothing. -/
theorem calls_left (d : BundleDb) (steps : List (SharedStep PoolUser PyError PoolCall)) :
    CallsLeft d (shared d steps) := by
  intro a ha c answer hcall hresult
  have hanswer := (store_told d steps).answers a ha (by rw [hcall]; rfl)
  obtain ⟨hledger, hlen⟩ := hanswer.result c answer hcall hresult
  have hleft : ledgerAt d (shared d steps) a.upto =
      (storePart.kept (beside (shared d steps) a)).durable.foldl storePart.put
        (ledgerAt d (shared d steps) a.began) := hanswer.left
  have hsettled : (storePart.kept (beside (shared d steps) a)).pending = [] := hanswer.settled
  have hiff := storePart.durable_eq_iff hsettled
  have hsub := storePart.kept_sublist (beside (shared d steps) a)
  rw [hsettled, List.append_nil] at hsub
  refine ⟨congrArg Prod.fst hledger, fun hkept => ?_, fun hstruck => ?_⟩
  · rw [hleft, hiff.mpr hkept]
    exact (congrArg Prod.snd hledger).symm
  · have hnone : (storePart.kept (beside (shared d steps) a)).durable = [] := by
      -- A method writes at most once, so what is not all of it is nothing.
      rw [← List.length_eq_zero_iff]
      by_contra hne
      refine hiff.mp (hsub.eq_of_length_le ?_) hstruck
      have hone : (storePart.writes (beside (shared d steps) a)).length ≤ 1 := hlen
      omega
    rw [hleft, hnone]
    rfl

/-! ### An append that is acknowledged and torn -/

namespace Sample

def event (eventId : String) : RuntimeEvent :=
  { runId := "run"
    eventId := eventId
    commitOffset := 0
    eventType := "run.ready"
    eventClass := .fact
    eventAuthority := .authoritativeFact
    orderingKey := "run"
    wakePolicy := .projectionOnly
    createdAt := "2026-01-01T00:00:00Z" }

def commit : ActionCommit :=
  { runId := "run"
    commitId := "commit"
    events := [event "a", event "b", event "c"]
    createdAt := "2026-01-01T00:00:00Z" }

def envelope : IdempotencyEnvelope :=
  { dispatchIdempotencyKey := "run:act"
    operationFingerprint := "fingerprint"
    attemptSeq := 1
    effectScope := "workspace"
    capabilitySnapshotHash := "hash"
    hostKind := .localCli }

/-- The first row is inserted into the transaction of a reservation and committed with it, the
second is lost to the rollback of a mark that could not begin. -/
def torn : List (SharedStep PoolUser PyError PoolCall) :=
  [.call (.ledger (.reserve envelope)), .step .dedupeStore none, .step .dedupeStore none,
    .call (.append commit), .step .eventLog none, .step .eventLog none, .step .eventLog none,
    .step .dedupeStore none, .step .dedupeStore none, .step .eventLog none,
    .call (.ledger (.markDispatched "run:act" none)), .step .dedupeStore none, .step .dedupeStore none,
    .step .eventLog none, .step .eventLog none]

end Sample

example : (shared .empty Sample.torn).conn.committed.events.rows.map EventRow.eventId = ["a", "c"] ∧
    (shared .empty Sample.torn).answers.map (fun a => a.result.isOk) = [true, false, true] := by
  decide

end AgentKernel.Persistence.Pooled
