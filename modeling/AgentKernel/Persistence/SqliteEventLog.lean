import AgentKernel.Persistence.AtomicRecord
import AgentKernel.Events.Journal

/-! The SQLite event log.

Its two tables are those of the colocated bundle under names of their own, so the
database is a `BundleDb` whose dedupe table stays empty. An append reads the last
offset, then inserts its rows in the transaction the first insertion opens; payloads
are written with sorted keys. `Stores` says that the rows of a database are the events
of a journal, in a form of their payloads. -/
namespace AgentKernel.Persistence
open Lib Events

namespace SQLiteKernelRuntimeEventLog
variable {α : Type}

/-- An error names the tables of this log. -/
def ownTables (e : PyError) : PyError := { e with message := e.message.replace "colocated_" "" }

/-- A statement on the tables of this log. -/
def own (statement : BundleDb → Except PyError (α × BundleDb)) (d : BundleDb) :
    Except PyError (α × BundleDb) :=
  (statement d).mapError ownTables

/-- `_load_next_offset`. -/
def loadNextOffset (runId : String) : Call PyError (Conn BundleDb) Nat := do
  let last ← Conn.exec busy (own (BundleDb.selectMaxOffset runId))
  pure (last + 1)

/-- `_insert_commit_row`. -/
def insertCommitRow (commit : ActionCommit) : Call PyError (Conn BundleDb) Nat :=
  Conn.exec busy (own (BundleDb.insertCommit commit))

/-- `_serialize_payload`: the document `json.dumps(…, sort_keys=True)` writes. -/
def serializePayload (payload : Option Payload) : Call PyError (Conn BundleDb) (Option Payload) :=
  match serialized Value.sortPayload payload with
  | .ok text => pure text
  | .error e => throw e

/-- `_insert_event_rows`, from the index `idx` on. -/
def insertEventRows (runId : String) (seq startOffset : Nat) :
    List RuntimeEvent → Nat → Call PyError (Conn BundleDb) Unit
  | [], _ => pure ()
  | event :: rest, idx => do
    let payload ← serializePayload event.payloadJson
    Conn.exec busy (own (BundleDb.insertEvent
      { BundleDb.eventRow runId seq startOffset idx event with payloadJson := payload }))
    insertEventRows runId seq startOffset rest (idx + 1)

def appendBody (commit : ActionCommit) (startOffset : Nat) :
    Call PyError (Conn BundleDb) (Conn.Close String) := do
  let seq ← insertCommitRow commit
  insertEventRows commit.runId seq startOffset commit.events 0
  pure (.commit (commitRef seq))

/-- `append_action_commit`; the connection commits on the way out, or rolls back. -/
def appendActionCommit (commit : ActionCommit) : Call PyError (Conn BundleDb) String :=
  if commit.events.isEmpty then throw emptyCommit
  else do
    let startOffset ← loadNextOffset commit.runId
    Conn.guardedTransaction busy (appendBody commit startOffset)

/-- `_row_to_runtime_event`: the schema version is not stored. -/
def rowToRuntimeEvent (row : EventRow) : RuntimeEvent :=
  { runId := row.eventRunId
    eventId := row.eventId
    commitOffset := row.commitOffset
    eventType := row.eventType
    eventClass := row.eventClass
    eventAuthority := row.eventAuthority
    orderingKey := row.orderingKey
    wakePolicy := row.wakePolicy
    createdAt := row.createdAt
    idempotencyKey := row.idempotencyKey
    payloadRef := row.payloadRef
    payloadJson := row.payloadJson }

def load (runId : String) (afterOffset : Int) : Call PyError (Conn BundleDb) (List RuntimeEvent) :=
  if FitsInt64 afterOffset then
    List.map rowToRuntimeEvent <$> Conn.exec busy (own (BundleDb.selectEvents runId afterOffset))
  else throw TableIn.overflow

end SQLiteKernelRuntimeEventLog

/-! ### What an append adds -/

/-- The event with its payload in another form. -/
def withPayload (enc : Payload → Payload) (event : RuntimeEvent) : RuntimeEvent :=
  { event with payloadJson := event.payloadJson.map enc }

/-- The rows of a commit are added at the next offsets of its run, their payloads in a
form of their own. -/
def AddsRows (enc : Payload → Payload) (commit : ActionCommit) (d d' : BundleDb) : Prop :=
  ∃ seq, d'.events.rows = d.events.rows ++ BundleDb.eventRows
    { commit with events := commit.events.map (withPayload enc) } seq (d.maxOffset commit.runId + 1)

namespace SharedEventLog

/-- Without faults a commit of serialisable events is appended. -/
theorem appendActionCommit_idle {commit : ActionCommit} (hne : commit.events ≠ [])
    (hser : ∀ event ∈ commit.events, Serialisable event) (d : BundleDb) :
    ∃ ref d', appendActionCommit commit (Conn.idle d []) = .ok ref (Conn.idle d' []) ∧
      AddsRows id commit d d' := by
  obtain ⟨seq, d', hrows⟩ := appendRows_open hne hser d d
  have hbody : appendBody commit ⟨d, some d, []⟩ =
      .ok (.commit (commitRef seq)) ⟨d, some d', []⟩ := by
    simp only [appendBody, Call.bind_apply, hrows, Call.pure_apply]
  have hempty : commit.events.isEmpty = false := by
    rw [Bool.eq_false_iff, Ne, List.isEmpty_iff]
    exact hne
  refine ⟨commitRef seq, d', ?_, ?_⟩
  · simp only [appendActionCommit, hempty]
    exact Conn.guardedTransaction_idle busy hbody
  · rcases appendRows_inTransaction commit ⟨d, some d, []⟩ d rfl with
      ⟨seq', c', d'', hok, hw, _, happ⟩ | ⟨e, c', d'', herr, _, _⟩
    · rw [hrows] at hok
      cases hok
      cases hw
      refine ⟨seq, ?_⟩
      have hid : commit.events.map (withPayload id) = commit.events := by
        refine (List.map_congr_left (fun event _ => ?_)).trans (List.map_id _)
        simp [withPayload]
      rw [hid]
      exact happ.events
    · rw [hrows] at herr
      cases herr

end SharedEventLog

namespace SQLiteKernelRuntimeEventLog
variable {α : Type}

theorem own_ok (statement : BundleDb → Except PyError (α × BundleDb)) {d : BundleDb}
    {r : α × BundleDb} (h : statement d = .ok r) : own statement d = .ok r := by
  simp [own, h, Except.mapError]

/-- The sorted payload is what the bundle would write of the sorted event. -/
theorem serializePayload_apply {event : RuntimeEvent} (h : Serialisable event) (c : Conn BundleDb) :
    serializePayload event.payloadJson c =
      .ok (withPayload Value.sortPayload event).payloadJson c := by
  have hwritten : serialized Value.sortPayload event.payloadJson =
      .ok (event.payloadJson.map Value.sortPayload) := by
    refine serialized_ok_iff.mpr ⟨rfl, fun items hitems => ?_⟩
    rw [Value.serialisable_sortPayload]
    exact h items hitems
  rw [serializePayload, hwritten]
  rfl

/-- Its rows are those the bundle writes of the same events with sorted payloads. -/
theorem insertEventRows_open (runId : String) (seq startOffset : Nat) (d₀ : BundleDb)
    (events : List RuntimeEvent) (idx : Nat) (d : BundleDb)
    (hroom : SharedEventLog.Room runId seq startOffset idx d)
    (hser : ∀ event ∈ events, Serialisable event) :
    ∃ d', insertEventRows runId seq startOffset events idx ⟨d₀, some d, []⟩ =
        .ok () ⟨d₀, some d', []⟩ ∧
      d'.events.rows = d.events.rows ++ SharedEventLog.rowsFrom runId seq startOffset
        (events.map (withPayload Value.sortPayload)) idx := by
  induction events generalizing idx d with
  | nil => exact ⟨d, rfl, (List.append_nil _).symm⟩
  | cons event rest ih =>
    obtain ⟨d₁, hins⟩ := hroom.insertEvent_ok (withPayload Value.sortPayload event)
    obtain ⟨d', hrest, hrows⟩ := ih (idx + 1) d₁ (hroom.after_insert hins)
      (fun e he => hser e (List.mem_cons_of_mem event he))
    refine ⟨d', ?_, ?_⟩
    · have hrow := own_ok (BundleDb.insertEvent
        { BundleDb.eventRow runId seq startOffset idx event with
          payloadJson := (withPayload Value.sortPayload event).payloadJson }) hins
      simp only [insertEventRows, Call.bind_apply,
        serializePayload_apply (hser event List.mem_cons_self), Conn.exec_open, hrow, hrest]
    · rw [hrows, (BundleDb.eventAdded_of_insert hins).1, List.map_cons, SharedEventLog.rowsFrom_cons,
        List.append_assoc]
      rfl

theorem appendActionCommit_idle {commit : ActionCommit} (hne : commit.events ≠ [])
    (hser : ∀ event ∈ commit.events, Serialisable event) (d : BundleDb) :
    ∃ ref d', appendActionCommit commit (Conn.idle d []) = .ok ref (Conn.idle d' []) ∧
      AddsRows Value.sortPayload commit d d' := by
  obtain ⟨d₁, hins⟩ := BundleDb.insertCommit_ok hne d
  have hadded := BundleDb.commitAdded_of_insert hins
  obtain ⟨d', hrows, hevents⟩ := insertEventRows_open commit.runId (d.lastSequence + 1)
    (d.maxOffset commit.runId + 1) d commit.events 0 d₁
    (SharedEventLog.room_of_commitAdded hadded) hser
  have hbody : appendBody commit (d.maxOffset commit.runId + 1) ⟨d, some d, []⟩ =
      .ok (.commit (commitRef (d.lastSequence + 1))) ⟨d, some d', []⟩ := by
    simp only [appendBody, insertCommitRow, Call.bind_apply, Conn.exec_open, own_ok _ hins, hrows,
      Call.pure_apply]
  have hempty : commit.events.isEmpty = false := by
    rw [Bool.eq_false_iff, Ne, List.isEmpty_iff]
    exact hne
  refine ⟨commitRef (d.lastSequence + 1), d', ?_, d.lastSequence + 1, ?_⟩
  · simp only [appendActionCommit, hempty]
    exact Conn.guardedTransaction_idle busy hbody
  · rw [hevents, hadded.events]
    simp only [SharedEventLog.rowsFrom, Nat.zero_add]
    rfl

end SQLiteKernelRuntimeEventLog

/-! ### Databases that store a journal -/

/-- What is left of an event in a row. -/
def stored (enc : Payload → Payload) (event : RuntimeEvent) : RuntimeEvent :=
  { withPayload enc event with schemaVersion := "1" }

open SQLiteKernelRuntimeEventLog (rowToRuntimeEvent)

/-- The rows of a run, in the order of their insertion. -/
def rowsOf (d : BundleDb) (runId : String) : List EventRow :=
  d.events.rows.filter (fun r => r.streamRunId = runId)

/-- Every run's rows are the events of the journal, as rows keep them. -/
def Stores (enc : Payload → Payload) (d : BundleDb) (j : Journal) : Prop :=
  ∀ runId, (rowsOf d runId).map rowToRuntimeEvent = (j.eventsOf runId).map (stored enc)

theorem stores_empty (enc : Payload → Payload) : Stores enc .empty .empty := fun _ => rfl

namespace Stores
variable {enc : Payload → Payload} {d : BundleDb} {j : Journal}

theorem offset (h : Stores enc d j) {runId : String} {i : Nat} {r : EventRow}
    (hr : (rowsOf d runId)[i]? = some r) : r.commitOffset = i + 1 := by
  have hrow := congrArg (fun l : List RuntimeEvent => l[i]?) (h runId)
  simp only [List.getElem?_map, hr, Option.map_some] at hrow
  obtain ⟨event, hevent, heq⟩ := Option.map_eq_some_iff.mp hrow.symm
  obtain ⟨hi, rfl⟩ := List.getElem?_eq_some_iff.mp hevent
  have hnum : ((j.eventsOf runId)[i]).commitOffset = i + 1 := j.numbered runId i hi
  have hoff : ((j.eventsOf runId)[i]).commitOffset = r.commitOffset :=
    congrArg RuntimeEvent.commitOffset heq
  omega

theorem length_rowsOf (h : Stores enc d j) (runId : String) :
    (rowsOf d runId).length = (j.eventsOf runId).length := by
  have hlen := congrArg List.length (h runId)
  rwa [List.length_map, List.length_map] at hlen

/-- The rows of a run stand in the order of their offsets. -/
theorem sorted (h : Stores enc d j) (runId : String) :
    (rowsOf d runId).Pairwise (fun a b => a.commitOffset < b.commitOffset) := by
  rw [List.pairwise_iff_getElem]
  intro i k hi hk hik
  have hlo := h.offset (List.getElem?_eq_getElem hi)
  have hhi := h.offset (List.getElem?_eq_getElem hk)
  omega

/-- The highest offset of a run is the number of its events. -/
theorem maxOffset (h : Stores enc d j) (runId : String) :
    d.maxOffset runId = (j.eventsOf runId).length := by
  rw [← h.length_rowsOf]
  show ((rowsOf d runId).map EventRow.commitOffset).max?.getD 0 = _
  rcases List.eq_nil_or_concat (rowsOf d runId) with hnil | ⟨front, last, hlast⟩
  · rw [hnil]
    rfl
  · rw [List.concat_eq_append] at hlast
    have hmem : (rowsOf d runId).length ∈ (rowsOf d runId).map EventRow.commitOffset := by
      refine List.mem_map.mpr ⟨last, by simp [hlast], ?_⟩
      have hget : (rowsOf d runId)[front.length]? = some last := by simp [hlast]
      rw [h.offset hget, hlast]
      simp
    have hle : ∀ n ∈ (rowsOf d runId).map EventRow.commitOffset, n ≤ (rowsOf d runId).length := by
      intro n hn
      obtain ⟨r, hr, rfl⟩ := List.mem_map.mp hn
      obtain ⟨i, hi, rfl⟩ := List.mem_iff_getElem.mp hr
      rw [h.offset (List.getElem?_eq_getElem hi)]
      omega
    rw [List.max?_eq_some_iff.mpr ⟨hmem, hle⟩, Option.getD_some]

/-- New rows read as the new events of the journal. -/
theorem rows_of_events (enc : Payload → Payload) (runId : String) (seq startOffset : Nat)
    (events : List RuntimeEvent) (idx : Nat) :
    (SharedEventLog.rowsFrom runId seq startOffset (events.map (withPayload enc)) idx).map
        rowToRuntimeEvent =
      (numberedFrom (startOffset + idx : Nat) events).map (stored enc) := by
  induction events generalizing idx with
  | nil => rfl
  | cons event rest ih =>
    rw [List.map_cons, SharedEventLog.rowsFrom_cons, List.map_cons, ih (idx + 1), numberedFrom,
      List.map_cons]
    congr 1

theorem append (h : Stores enc d j) {commit : ActionCommit} {d' : BundleDb}
    (hadds : AddsRows enc commit d d') : Stores enc d' (j.append commit) := by
  obtain ⟨seq, hrows⟩ := hadds
  have hstream : ∀ r ∈ BundleDb.eventRows
      { commit with events := commit.events.map (withPayload enc) } seq
      (d.maxOffset commit.runId + 1), r.streamRunId = commit.runId := by
    intro r hr
    obtain ⟨i, hi, rfl⟩ := List.mem_iff_getElem.mp hr
    simp [BundleDb.eventRows, BundleDb.eventRow]
  intro runId
  rw [Journal.eventsOf_append, rowsOf, hrows, List.filter_append]
  split
  · rename_i hrun
    subst hrun
    have hnew := rows_of_events enc commit.runId seq (d.maxOffset commit.runId + 1) commit.events 0
    simp only [SharedEventLog.rowsFrom, Nat.zero_add] at hnew
    rw [List.filter_eq_self.mpr (fun r hr => decide_eq_true (hstream r hr)), List.map_append,
      List.map_append]
    congr 1
    · exact h commit.runId
    · rw [Journal.lastOffset, ← h.maxOffset]
      simpa [BundleDb.eventRows] using hnew
  · rename_i hrun
    have hnone : (BundleDb.eventRows
        { commit with events := commit.events.map (withPayload enc) } seq
        (d.maxOffset commit.runId + 1)).filter (fun r => r.streamRunId = runId) = [] := by
      refine List.filter_eq_nil_iff.mpr (fun r hr => ?_)
      rw [hstream r hr]
      simpa using Ne.symm hrun
    rw [hnone, List.append_nil]
    exact h runId

/-- What a query reads is what the journal loads. -/
theorem selectEvents (h : Stores enc d j) (runId : String) (afterOffset : Int) :
    ∃ rows, BundleDb.selectEvents runId afterOffset d = .ok (rows, d) ∧
      rows.map rowToRuntimeEvent = (j.load runId afterOffset).map (stored enc) := by
  have hsplit : d.events.rows.filter (fun r => r.streamRunId = runId ∧ afterOffset < r.commitOffset) =
      (rowsOf d runId).filter (fun r => afterOffset < r.commitOffset) := by
    rw [rowsOf, List.filter_filter]
    refine List.filter_congr (fun r _ => ?_)
    simp [Bool.and_comm]
  refine ⟨(rowsOf d runId).filter (fun r => afterOffset < r.commitOffset), ?_, ?_⟩
  · rw [BundleDb.selectEvents, hsplit, List.mergeSort_of_pairwise]
    refine ((h.sorted runId).filter _).imp (fun hlt => ?_)
    simpa using Nat.le_of_lt hlt
  · have hreads : ((rowsOf d runId).filter (fun r => afterOffset < r.commitOffset)).map
        rowToRuntimeEvent = ((rowsOf d runId).map rowToRuntimeEvent).filter
          (fun e => e.commitOffset > afterOffset) := by
      rw [List.filter_map]
      rfl
    rw [hreads, h runId, List.filter_map]
    rfl

end Stores
end AgentKernel.Persistence
