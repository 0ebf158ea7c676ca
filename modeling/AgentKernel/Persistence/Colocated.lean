import AgentKernel.Lib.Run
import AgentKernel.Persistence.SqlDedupe

/-! The colocated bundle: event log and dedupe store on one connection.

`BundleDb` is the schema: the declared keys and references hold of every database
there is, and a statement that would break one fails. `atomicDispatchRecord`
reserves a key and appends a commit in one transaction, so it does both or
neither; the other methods open transactions of their own on the same connection. -/
namespace AgentKernel.Persistence
open Lib Dedupe

/-! ### Schema -/

structure CommitRow where
  commitSequence : Nat
  streamRunId : String
  commitId : String
  createdAt : String
  eventCount : Nat

/-- The payload column holds the document its JSON text stands for. -/
structure EventRow where
  commitSequence : Nat
  eventIndex : Nat
  streamRunId : String
  eventRunId : String
  commitOffset : Nat
  eventId : String
  eventType : String
  eventClass : EventClass
  eventAuthority : EventAuthority
  orderingKey : String
  wakePolicy : WakePolicy
  createdAt : String
  idempotencyKey : Option String
  payloadRef : Option String
  payloadJson : Option Payload

def EventRow.offsetKey (r : EventRow) : String × Nat := (r.streamRunId, r.commitOffset)

def EventRow.indexKey (r : EventRow) : Nat × Nat := (r.commitSequence, r.eventIndex)

structure BundleDb where
  dedupe : DedupeTable
  commits : Table CommitRow Nat CommitRow.commitSequence
  /-- The `AUTOINCREMENT` counter of the commits. -/
  lastSequence : Nat
  events : Table EventRow (String × Nat) EventRow.offsetKey
  uniqueIndex : (events.rows.map EventRow.indexKey).Nodup
  foreignKey : ∀ r ∈ events.rows, r.commitSequence ∈ commits.rows.map CommitRow.commitSequence
  autoincrement : ∀ c ∈ commits.rows, c.commitSequence ≤ lastSequence

namespace BundleDb

def empty : BundleDb where
  dedupe := Table.empty
  commits := Table.empty
  lastSequence := 0
  events := Table.empty
  uniqueIndex := List.nodup_nil
  foreignKey := fun _ h => nomatch h
  autoincrement := fun _ h => nomatch h

/-- `COALESCE(MAX(commit_offset), 0)` over the rows of a run. -/
def maxOffset (d : BundleDb) (runId : String) : Nat :=
  ((d.events.rows.filter (fun r => r.streamRunId = runId)).map EventRow.commitOffset).max?.getD 0

theorem le_maxOffset (d : BundleDb) {r : EventRow} (h : r ∈ d.events.rows) :
    r.commitOffset ≤ d.maxOffset r.streamRunId := by
  have hmem : r.commitOffset ∈
      (d.events.rows.filter (fun r' => r'.streamRunId = r.streamRunId)).map EventRow.commitOffset :=
    List.mem_map.mpr ⟨r, List.mem_filter.mpr ⟨h, by simp⟩, rfl⟩
  exact List.le_max?_getD_of_mem hmem

/-- The row a commit gets. -/
def commitRow (commit : ActionCommit) (seq : Nat) : CommitRow :=
  { commitSequence := seq
    streamRunId := commit.runId
    commitId := commit.commitId
    createdAt := commit.createdAt
    eventCount := commit.events.length }

/-- The row the event at index `idx` of a commit gets. -/
def eventRow (runId : String) (seq startOffset idx : Nat) (event : RuntimeEvent) : EventRow :=
  { commitSequence := seq
    eventIndex := idx
    streamRunId := runId
    eventRunId := event.runId
    commitOffset := startOffset + idx
    eventId := event.eventId
    eventType := event.eventType
    eventClass := event.eventClass
    eventAuthority := event.eventAuthority
    orderingKey := event.orderingKey
    wakePolicy := event.wakePolicy
    createdAt := event.createdAt
    idempotencyKey := event.idempotencyKey
    payloadRef := event.payloadRef
    payloadJson := event.payloadJson }

/-- The rows of a whole commit. -/
def eventRows (commit : ActionCommit) (seq startOffset : Nat) : List EventRow :=
  commit.events.mapIdx (fun idx event => eventRow commit.runId seq startOffset idx event)

/-! ### Statements -/

def addCommit (d : BundleDb) (row : CommitRow) (t : Table CommitRow Nat CommitRow.commitSequence)
    (h : d.commits.insert row = some t) : BundleDb :=
  { d with
    commits := t
    lastSequence := max d.lastSequence row.commitSequence
    foreignKey := by
      intro r hr
      rw [(Table.rows_insert h).2, List.map_append]
      exact List.mem_append_left _ (d.foreignKey r hr)
    autoincrement := by
      intro c hc
      rw [(Table.rows_insert h).2] at hc
      rcases List.mem_append.mp hc with hc | hc
      · exact Nat.le_trans (d.autoincrement c hc) (Nat.le_max_left _ _)
      · rw [List.mem_singleton.mp hc]
        exact Nat.le_max_right _ _ }

/-- Insert a commit and return its sequence number. -/
def insertCommit (commit : ActionCommit) (d : BundleDb) : Except PyError (Nat × BundleDb) :=
  if 0 < commit.events.length then
    match h : d.commits.insert (commitRow commit (d.lastSequence + 1)) with
    | some t => .ok (d.lastSequence + 1, d.addCommit _ t h)
    | none => .error ⟨.integrityError,
        "UNIQUE constraint failed: colocated_action_commits.commit_sequence"⟩
  else .error ⟨.integrityError, "CHECK constraint failed: event_count > 0"⟩

def addEvent (d : BundleDb) (row : EventRow) (t : Table EventRow (String × Nat) EventRow.offsetKey)
    (h : d.events.insert row = some t) (hindex : row.indexKey ∉ d.events.rows.map EventRow.indexKey)
    (hcommit : row.commitSequence ∈ d.commits.rows.map CommitRow.commitSequence) : BundleDb :=
  { d with
    events := t
    uniqueIndex := by
      rw [(Table.rows_insert h).2, List.map_append, List.map_singleton]
      refine List.nodup_append.mpr ⟨d.uniqueIndex, List.nodup_singleton _, ?_⟩
      intro a ha b hb hab
      rw [List.mem_singleton.mp hb] at hab
      exact hindex (hab ▸ ha)
    foreignKey := by
      intro r hr
      rw [(Table.rows_insert h).2] at hr
      rcases List.mem_append.mp hr with hr | hr
      · exact d.foreignKey r hr
      · rw [List.mem_singleton.mp hr]
        exact hcommit }

def insertEvent (row : EventRow) (d : BundleDb) : Except PyError (Unit × BundleDb) :=
  match h : d.events.insert row with
  | none => .error ⟨.integrityError, "UNIQUE constraint failed: " ++
      "colocated_runtime_events.stream_run_id, colocated_runtime_events.commit_offset"⟩
  | some t =>
    if hindex : row.indexKey ∈ d.events.rows.map EventRow.indexKey then
      .error ⟨.integrityError, "UNIQUE constraint failed: " ++
        "colocated_runtime_events.commit_sequence, colocated_runtime_events.event_index"⟩
    else if hcommit : row.commitSequence ∈ d.commits.rows.map CommitRow.commitSequence then
      .ok ((), d.addEvent row t h hindex hcommit)
    else .error ⟨.integrityError, "FOREIGN KEY constraint failed"⟩

def selectMaxOffset (runId : String) (d : BundleDb) : Except PyError (Nat × BundleDb) :=
  .ok (d.maxOffset runId, d)

/-- The rows of a run after an offset, in order of their offsets. -/
def selectEvents (runId : String) (afterOffset : Int) (d : BundleDb) :
    Except PyError (List EventRow × BundleDb) :=
  .ok ((d.events.rows.filter (fun r => r.streamRunId = runId ∧ afterOffset < r.commitOffset)).mergeSort
    (fun a b => a.commitOffset ≤ b.commitOffset), d)

/-! ### What the statements write -/

theorem insertCommit_ok {commit : ActionCommit} (h : commit.events ≠ []) (d : BundleDb) :
    ∃ d', insertCommit commit d = .ok (d.lastSequence + 1, d') := by
  have hpos : 0 < commit.events.length := List.length_pos_iff.mpr h
  have hfree : d.commits.select (d.lastSequence + 1) = none := by
    rw [Table.select_eq_none_iff]
    intro hmem
    obtain ⟨c, hc, hseq⟩ := List.mem_map.mp hmem
    have hle := d.autoincrement c hc
    omega
  obtain ⟨t, ht, _⟩ := Table.insert_of_select (r := commitRow commit (d.lastSequence + 1)) hfree
  refine ⟨d.addCommit _ t ht, ?_⟩
  unfold insertCommit
  rw [if_pos hpos]
  split
  · rename_i t' ht'
    rw [ht] at ht'
    cases ht'
    rfl
  · rename_i hnone
    rw [ht] at hnone
    cases hnone

/-- A commit is added under a sequence number no event row has yet. -/
structure CommitAdded (commit : ActionCommit) (d : BundleDb) (seq : Nat) (d' : BundleDb) : Prop where
  sequence : seq = d.lastSequence + 1
  commits : d'.commits.rows = d.commits.rows ++ [commitRow commit seq]
  events : d'.events = d.events
  dedupe : d'.dedupe = d.dedupe

theorem commitAdded_of_insert {commit : ActionCommit} {d d' : BundleDb} {seq : Nat}
    (h : insertCommit commit d = .ok (seq, d')) : CommitAdded commit d seq d' := by
  unfold insertCommit at h
  split at h
  · split at h
    · rename_i t ht
      simp only [Except.ok.injEq, Prod.mk.injEq] at h
      obtain ⟨rfl, rfl⟩ := h
      exact ⟨rfl, (Table.rows_insert ht).2, rfl, rfl⟩
    · cases h
  · cases h

theorem eventAdded_of_insert {row : EventRow} {d d' : BundleDb}
    (h : insertEvent row d = .ok ((), d')) :
    d'.events.rows = d.events.rows ++ [row] ∧ d'.commits = d.commits ∧ d'.dedupe = d.dedupe := by
  unfold insertEvent at h
  split at h
  · cases h
  · rename_i t ht
    split at h
    · cases h
    · split at h
      · simp only [Except.ok.injEq, Prod.mk.injEq, true_and] at h
        subst h
        exact ⟨(Table.rows_insert ht).2, rfl, rfl⟩
      · cases h

theorem insertEvent_ok {row : EventRow} {d : BundleDb} (hoffset : d.events.select row.offsetKey = none)
    (hindex : row.indexKey ∉ d.events.rows.map EventRow.indexKey)
    (hcommit : row.commitSequence ∈ d.commits.rows.map CommitRow.commitSequence) :
    ∃ d', insertEvent row d = .ok ((), d') := by
  obtain ⟨t, ht, _⟩ := Table.insert_of_select hoffset
  refine ⟨d.addEvent row t ht hindex hcommit, ?_⟩
  unfold insertEvent
  split
  · rename_i hnone
    rw [ht] at hnone
    cases hnone
  · rename_i t' ht'
    rw [ht] at ht'
    cases ht'
    rw [dif_neg hindex, dif_pos hcommit]

end BundleDb

/-! ### The event log of the bundle -/

def commitRef (seq : Nat) : String := "commit-ref-" ++ toString seq

/-- `json.dumps` of a dictionary, the document standing for its text. -/
def jsonDumps (items : Payload) : Except PyError Payload :=
  match (Value.dict items).unwritable with
  | none => .ok items
  | some .object => .error ⟨.typeError, "Object is not JSON serializable"⟩
  | some .tooManyDigits => .error tooManyDigits

/-- A payload column: the payload in some form, when there is one. -/
def serialized (enc : Payload → Payload) : Option Payload → Except PyError (Option Payload)
  | none => .ok none
  | some items => some <$> jsonDumps (enc items)

/-- `json.dumps` of an event's payload, when it has one. -/
def dumps (payload : Option Payload) : Call PyError (Conn BundleDb) (Option Payload) :=
  match serialized id payload with
  | .ok text => pure text
  | .error e => throw e

/-- `json.dumps` has a form for the event's payload. -/
def Serialisable (event : RuntimeEvent) : Prop :=
  ∀ items, event.payloadJson = some items → (Value.dict items).serialisable = true

theorem jsonDumps_ok_iff {items written : Payload} :
    jsonDumps items = .ok written ↔ (Value.dict items).serialisable = true ∧ written = items := by
  rw [Value.serialisable_iff, jsonDumps]
  cases (Value.dict items).unwritable with
  | none => simp [eq_comm]
  | some u => cases u <;> simp

theorem serialized_ok_iff {enc : Payload → Payload} {payload column : Option Payload} :
    serialized enc payload = .ok column ↔ column = payload.map enc ∧
      ∀ items, payload = some items → (Value.dict (enc items)).serialisable = true := by
  cases payload with
  | none =>
    constructor
    · intro h
      exact ⟨(Except.ok.inj h).symm, fun _ hitems => by cases hitems⟩
    · intro h
      rw [h.1]
      rfl
  | some items =>
    cases hdumps : jsonDumps (enc items) with
    | ok written =>
      obtain ⟨hser, rfl⟩ := jsonDumps_ok_iff.mp hdumps
      rw [serialized, hdumps]
      constructor
      · intro h
        refine ⟨(Except.ok.inj h).symm, fun items' hitems => ?_⟩
        rw [← Option.some.inj hitems]
        exact hser
      · intro h
        rw [h.1]
        rfl
    | error e =>
      have hnot : (Value.dict (enc items)).serialisable ≠ true := by
        intro hser
        rw [jsonDumps_ok_iff.mpr ⟨hser, rfl⟩] at hdumps
        cases hdumps
      rw [serialized, hdumps]
      exact iff_of_false (fun h => by cases h) (fun h => hnot (h.2 items rfl))

namespace SharedEventLog

/-- `_next_offset`. -/
def nextOffset (runId : String) : Call PyError (Conn BundleDb) Nat := do
  let last ← Conn.exec busy (BundleDb.selectMaxOffset runId)
  pure (last + 1)

/-- `_insert_commit_row`. -/
def insertCommitRow (commit : ActionCommit) : Call PyError (Conn BundleDb) Nat :=
  Conn.exec busy (BundleDb.insertCommit commit)

/-- `_insert_event_rows`, from the index `idx` on. -/
def insertEventRows (runId : String) (seq startOffset : Nat) :
    List RuntimeEvent → Nat → Call PyError (Conn BundleDb) Unit
  | [], _ => pure ()
  | event :: rest, idx => do
    let payload ← dumps event.payloadJson
    Conn.exec busy (BundleDb.insertEvent
      { BundleDb.eventRow runId seq startOffset idx event with payloadJson := payload })
    insertEventRows runId seq startOffset rest (idx + 1)

/-- The three statements both appending methods make. -/
def appendRows (commit : ActionCommit) : Call PyError (Conn BundleDb) Nat := do
  let start ← nextOffset commit.runId
  let seq ← insertCommitRow commit
  insertEventRows commit.runId seq start commit.events 0
  pure seq

def appendBody (commit : ActionCommit) : Call PyError (Conn BundleDb) (Conn.Close String) := do
  let seq ← appendRows commit
  pure (.commit (commitRef seq))

def appendActionCommit (commit : ActionCommit) : Call PyError (Conn BundleDb) String :=
  if commit.events.isEmpty then throw emptyCommit
  else Conn.guardedTransaction busy (appendBody commit)

/-- `_row_to_event`: an empty text column reads as absent, and the schema version
is not stored. -/
def rowToEvent (row : EventRow) : RuntimeEvent :=
  { runId := row.eventRunId
    eventId := row.eventId
    commitOffset := row.commitOffset
    eventType := row.eventType
    eventClass := row.eventClass
    eventAuthority := row.eventAuthority
    orderingKey := row.orderingKey
    wakePolicy := row.wakePolicy
    createdAt := row.createdAt
    idempotencyKey := Text.orElse row.idempotencyKey none
    payloadRef := Text.orElse row.payloadRef none
    payloadJson := row.payloadJson }

/-- `load`; the offset is bound as a 64-bit parameter. -/
def load (runId : String) (afterOffset : Int) : Call PyError (Conn BundleDb) (List RuntimeEvent) :=
  if FitsInt64 afterOffset then
    List.map rowToEvent <$> Conn.exec busy (BundleDb.selectEvents runId afterOffset)
  else throw TableIn.overflow

def maxOffset (runId : String) : Call PyError (Conn BundleDb) Nat :=
  Conn.exec busy (BundleDb.selectMaxOffset runId)

end SharedEventLog

/-! ### The dedupe store of the bundle -/

/-- The dedupe table of the bundle. -/
def bundleTable : TableIn BundleDb where
  table := BundleDb.dedupe
  put := fun d t => { d with dedupe := t }
  table_put := fun _ _ => rfl
  lostUpdate := fun key _ => ⟨.dedupeStoreStateError, "Lost-update: key '" ++ key ++ "' disappeared."⟩

namespace SharedDedupeStore

def port : DedupeStorePort (Conn BundleDb) := bundleTable.methods.port

end SharedDedupeStore

/-! ### The bundle -/

namespace ColocatedSQLiteBundle

def recordBody (commit : ActionCommit) (envelope : IdempotencyEnvelope) :
    Call PyError (Conn BundleDb) (Conn.Close (String × DedupeReservation)) := do
  match ← bundleTable.get envelope.dispatchIdempotencyKey with
  | some existing => pure (.rollback ("", .duplicateOf existing))
  | none => do
    Conn.exec busy (bundleTable.insertRow (envelope.record .reserved envelope.peerOperationId))
    let seq ← SharedEventLog.appendRows commit
    pure (.commit (commitRef seq, .granted))

def atomicDispatchRecord (commit : ActionCommit) (envelope : IdempotencyEnvelope) :
    Call PyError (Conn BundleDb) (String × DedupeReservation) :=
  if commit.events.isEmpty then throw emptyCommit
  else Conn.transaction busy false (recordBody commit envelope)

end ColocatedSQLiteBundle
end AgentKernel.Persistence
