import AgentKernel.Lib.Progress
import AgentKernel.Persistence.EventLogs
import AgentKernel.Persistence.PgDedupe

/-! The event log over PostgreSQL.

An append is one transaction: the advisory lock of its run, the last offset, a commit row
under a number drawn from its sequence, and a row for each event. The lock is taken on a
hash of the run, so two runs may share one; other sessions commit between the statements,
and any of them may break off.

For every order of the statements the log is the journal of the commits, in the order they
were committed (`log_is_journal`), and no append is ever refused for a key it finds taken
(`appends_settled`). What the driver makes of a payload is a parameter, and so are the texts
the server can hold and those it can index. -/
namespace AgentKernel.Persistence
open Lib Events

/-! ### Schema -/

/-- A row of `pg_runtime_events`; the columns of the event are one field. -/
structure PgEventRow where
  commitSequence : Nat
  eventIndex : Nat
  streamRunId : String
  event : RuntimeEvent

def PgEventRow.offsetKey (r : PgEventRow) : String × Int := (r.streamRunId, r.event.commitOffset)

def PgEventRow.indexKey (r : PgEventRow) : Nat × Nat := (r.commitSequence, r.eventIndex)

/-- The text columns of an event, as they are bound. -/
def eventTexts (event : RuntimeEvent) : List (Option String) :=
  [some event.runId, some event.eventId, some event.eventType, some event.orderingKey,
    some event.createdAt, event.idempotencyKey, event.payloadRef, some event.schemaVersion]

/-- The texts of a commit row. -/
def commitTexts (commit : ActionCommit) : List (Option String) :=
  [some commit.runId, some commit.commitId, some commit.createdAt]

/-- The texts of an event row. -/
def PgEventRow.texts (r : PgEventRow) : List (Option String) := some r.streamRunId :: eventTexts r.event

structure PgDb where
  commits : Table CommitRow Nat CommitRow.commitSequence
  events : Table PgEventRow (String × Int) PgEventRow.offsetKey
  uniqueIndex : (events.rows.map PgEventRow.indexKey).Nodup
  foreignKey : ∀ r ∈ events.rows, r.commitSequence ∈ commits.rows.map CommitRow.commitSequence

namespace PgDb

theorem uniqueIndex_empty :
    ((Table.empty : Table PgEventRow (String × Int) PgEventRow.offsetKey).rows.map PgEventRow.indexKey).Nodup :=
  List.nodup_nil

def empty : PgDb where
  commits := Table.empty
  events := Table.empty
  uniqueIndex := uniqueIndex_empty
  foreignKey := fun _ h => absurd h List.not_mem_nil

def rowsOf (d : PgDb) (runId : String) : List PgEventRow :=
  d.events.rows.filter (fun r => r.streamRunId = runId)

/-- `COALESCE(MAX(commit_offset), 0)` over the rows of a run. -/
def maxOffset (d : PgDb) (runId : String) : Int :=
  ((d.rowsOf runId).map (fun r => r.event.commitOffset)).max?.getD 0

/-! ### Statements -/

def uniqueViolation (constraint : String) : PyError :=
  ⟨.other "UniqueViolationError", "duplicate key value violates unique constraint " ++ constraint⟩

def addCommit (d : PgDb) (row : CommitRow) (t : Table CommitRow Nat CommitRow.commitSequence)
    (h : d.commits.insert row = some t) : PgDb :=
  { d with
    commits := t
    foreignKey := by
      intro r hr
      rw [(Table.rows_insert h).2, List.map_append]
      exact List.mem_append_left _ (d.foreignKey r hr) }

/-- `INSERT INTO pg_action_commits`, under a number of the sequence. -/
def insertCommit (commit : ActionCommit) (seq : Nat) (d : PgDb) : Except PyError (Unit × PgDb) :=
  if 0 < commit.events.length then
    match h : d.commits.insert (BundleDb.commitRow commit seq) with
    | some t => .ok ((), d.addCommit _ t h)
    | none => .error (uniqueViolation "pg_action_commits_pkey")
  else .error ⟨.other "CheckViolationError", "violates check constraint event_count"⟩

def addEvent (d : PgDb) (row : PgEventRow) (t : Table PgEventRow (String × Int) PgEventRow.offsetKey)
    (h : d.events.insert row = some t) (hindex : row.indexKey ∉ d.events.rows.map PgEventRow.indexKey)
    (hcommit : row.commitSequence ∈ d.commits.rows.map CommitRow.commitSequence) : PgDb :=
  { d with
    events := t
    uniqueIndex := by
      rw [(Table.rows_insert h).2, List.map_append, List.map_singleton]
      refine List.nodup_append.mpr ⟨d.uniqueIndex, List.nodup_singleton _, ?_⟩
      intro a ha b hb hab
      rw [List.mem_singleton.mp hb] at hab
      exact hindex (hab ▸ ha)
    foreignKey := by
      intro r hr
      rw [(Table.rows_insert h).2] at hr
      rcases List.mem_append.mp hr with hr | hr
      · exact d.foreignKey r hr
      · rw [List.mem_singleton.mp hr]
        exact hcommit }

/-- `INSERT INTO pg_runtime_events`. The run id is part of two indexes. -/
def insertEvent (server : PgServer) (row : PgEventRow) (d : PgDb) : Except PyError (Unit × PgDb) :=
  match server.refusal row.texts with
  | some e => .error e
  | none =>
    match h : d.events.insert row with
    | none => .error (uniqueViolation "stream_run_id, commit_offset")
    | some t =>
      if server.indexable row.streamRunId = false then .error indexRowSize
      else if hindex : ∃ r ∈ d.events.rows, r.indexKey = row.indexKey then
        .error (uniqueViolation "commit_sequence, event_index")
      else if hcommit : row.commitSequence ∈ d.commits.rows.map CommitRow.commitSequence then
        .ok ((), d.addEvent row t h (fun hmem => hindex (List.mem_map.mp hmem)) hcommit)
      else .error ⟨.other "ForeignKeyViolationError", "violates foreign key constraint commit_sequence"⟩

def selectMaxOffset (runId : String) (d : PgDb) : Except PyError (Int × PgDb) :=
  .ok (d.maxOffset runId, d)

end PgDb

namespace PostgresKernelRuntimeEventLog

/-! ### Methods -/

section
variable (server : PgServer) (hashtextextended : String → Int) (jsonb : Payload → Except PyError Payload)

/-- The payload as it is stored: what `json` reads back of its own text with sorted keys, in
the form the driver has for a `JSONB` parameter, if it has one. -/
def storedPayload : Option Payload → Except PyError (Option Payload)
  | none => .ok none
  | some items => some <$> (jsonDumps (Value.sortPayload items) >>= jsonb)

/-- The row of the event at index `idx` of a commit. -/
def eventRow (runId : String) (seq : Nat) (nextOffset : Int) (idx : Nat) (event : RuntimeEvent)
    (payload : Option Payload) : PgEventRow :=
  { commitSequence := seq
    eventIndex := idx
    streamRunId := runId
    event := { event with commitOffset := nextOffset + idx, payloadJson := payload } }

abbrev AppendTx := Tx PyError PgDb Int String

/-- The loop over the events of a commit, from the index `idx` on. -/
def insertEventsTx (runId : String) (seq : Nat) (nextOffset : Int) :
    List RuntimeEvent → Nat → AppendTx → AppendTx
  | [], _, done => done
  | event :: rest, idx, done =>
    match storedPayload jsonb event.payloadJson with
    | .error e => .rollback e
    | .ok payload =>
      Tx.exec (fun _ => none) (PgDb.insertEvent server (eventRow runId seq nextOffset idx event payload))
        (fun _ => insertEventsTx runId seq nextOffset rest (idx + 1) done)

/-- `INSERT INTO pg_action_commits … RETURNING`. The texts are bound before the number is drawn. -/
def insertCommitTx (commit : ActionCommit) (next : Nat → AppendTx) : AppendTx :=
  match server.refusal (commitTexts commit) with
  | some e => .rollback e
  | none => .draw (fun seq => Tx.exec (fun _ => none) (PgDb.insertCommit commit seq) (fun _ => next seq))

/-- `_append_action_commit_impl`, after the check of `append_action_commit`. A run id that cannot
be bound fails in the first statement, before the lock. -/
def appendTx (commit : ActionCommit) : AppendTx :=
  if commit.events.isEmpty then .rollback emptyCommit
  else
    match server.refusal [some commit.runId] with
    | some e => .rollback e
    | none =>
      Tx.exec (fun _ => some (hashtextextended commit.runId)) (fun d => .ok ((), d)) (fun _ =>
        Tx.exec (fun _ => none) (PgDb.selectMaxOffset commit.runId) (fun last =>
          insertCommitTx server commit (fun seq =>
            insertEventsTx server jsonb commit.runId seq (last + 1) commit.events 0
              (.commit (commitRef seq)))))

/-- `_load_rows` and `_row_to_runtime_event`. -/
def load (d : PgDb) (runId : String) (afterOffset : Int) : List RuntimeEvent :=
  ((d.events.rows.filter (fun r => r.streamRunId = runId ∧ afterOffset < r.event.commitOffset)).mergeSort
    (fun a b => a.event.commitOffset ≤ b.event.commitOffset)).map PgEventRow.event

end

/-! ### What the statements write -/

/-- A commit row and rows of events are added. -/
structure Added (d d' : PgDb) (commits : List CommitRow) (rows : List PgEventRow) : Prop where
  commits : d'.commits.rows = d.commits.rows ++ commits
  events : d'.events.rows = d.events.rows ++ rows

theorem Added.trans {d d' d'' : PgDb} {commits : List CommitRow} {rows rows' : List PgEventRow}
    (h : Added d d' commits rows) (h' : Added d' d'' [] rows') : Added d d'' commits (rows ++ rows') where
  commits := by rw [h'.commits, List.append_nil, h.commits]
  events := by rw [h'.events, h.events, List.append_assoc]

theorem insertCommit_ok {commit : ActionCommit} {seq : Nat} {d : PgDb} (hne : commit.events ≠ [])
    (hfresh : seq ∉ d.commits.rows.map CommitRow.commitSequence) :
    ∃ d', PgDb.insertCommit commit seq d = .ok ((), d') ∧
      Added d d' [BundleDb.commitRow commit seq] [] := by
  have hpos : 0 < commit.events.length := List.length_pos_iff.mpr hne
  obtain ⟨t, ht, hrows⟩ := Table.insert_of_select (r := BundleDb.commitRow commit seq)
    ((d.commits.select_eq_none_iff seq).mpr hfresh)
  refine ⟨d.addCommit _ t ht, ?_, ⟨hrows, by simp [PgDb.addCommit]⟩⟩
  unfold PgDb.insertCommit
  rw [if_pos hpos]
  split
  · rename_i t' ht'
    rw [ht] at ht'
    cases ht'
    rfl
  · rename_i hnone
    rw [ht] at hnone
    cases hnone

/-- The keys of a row are not taken, and its commit is there. -/
structure Free (row : PgEventRow) (d : PgDb) : Prop where
  offset : d.events.select row.offsetKey = none
  index : row.indexKey ∉ d.events.rows.map PgEventRow.indexKey
  commit : row.commitSequence ∈ d.commits.rows.map CommitRow.commitSequence

theorem insertEvent_ok {server : PgServer} {row : PgEventRow} {d : PgDb} (hfree : Free row d)
    (htexts : server.refusal row.texts = none) (hkey : server.indexable row.streamRunId = true) :
    ∃ d', PgDb.insertEvent server row d = .ok ((), d') ∧ Added d d' [] [row] := by
  obtain ⟨t, ht, hrows⟩ := Table.insert_of_select hfree.offset
  refine ⟨d.addEvent row t ht hfree.index hfree.commit, ?_, ⟨by simp [PgDb.addEvent], hrows⟩⟩
  unfold PgDb.insertEvent
  rw [htexts]
  dsimp only
  split
  · rename_i hnone
    rw [ht] at hnone
    cases hnone
  · rename_i t' ht'
    rw [ht] at ht'
    cases ht'
    rw [if_neg (by rw [hkey]; exact Bool.noConfusion),
      dif_neg (fun hex => hfree.index (List.mem_map.mpr hex)), dif_pos hfree.commit]

/-- A row that is inserted could be held and indexed. -/
theorem insertEvent_accepted {server : PgServer} {row : PgEventRow} {d : PgDb} {r : Unit × PgDb}
    (h : PgDb.insertEvent server row d = .ok r) :
    server.refusal row.texts = none ∧ server.indexable row.streamRunId = true := by
  unfold PgDb.insertEvent at h
  split at h
  · cases h
  · rename_i hnone
    refine ⟨hnone, ?_⟩
    split at h
    · cases h
    · split at h
      · cases h
      · rename_i hkey
        exact Bool.eq_true_of_not_eq_false hkey

/-- A row whose keys are free is refused for its texts only. -/
theorem insertEvent_refused {server : PgServer} {row : PgEventRow} {d : PgDb} {e : PyError}
    (hfree : Free row d) (h : PgDb.insertEvent server row d = .error e) :
    server.refusal row.texts = some e ∨ server.indexable row.streamRunId = false ∧ e = indexRowSize := by
  cases htexts : server.refusal row.texts with
  | some e' =>
    unfold PgDb.insertEvent at h
    rw [htexts] at h
    exact .inl (congrArg some (Except.error.inj h))
  | none =>
    cases hkey : server.indexable row.streamRunId with
    | true =>
      obtain ⟨d', hok, _⟩ := insertEvent_ok hfree htexts hkey
      rw [hok] at h
      cases h
    | false =>
      obtain ⟨t, ht, _⟩ := Table.insert_of_select hfree.offset
      refine .inr ⟨rfl, ?_⟩
      unfold PgDb.insertEvent at h
      rw [htexts] at h
      dsimp only at h
      split at h
      · rename_i hnone
        rw [ht] at hnone
        cases hnone
      · rw [if_pos hkey] at h
        exact (Except.error.inj h).symm

/-- No row of a run is past its last offset. -/
theorem le_maxOffset {d : PgDb} {r : PgEventRow} (h : r ∈ d.events.rows) :
    r.event.commitOffset ≤ d.maxOffset r.streamRunId := by
  have hmem : r.event.commitOffset ∈ (d.rowsOf r.streamRunId).map (fun r => r.event.commitOffset) :=
    List.mem_map.mpr ⟨r, List.mem_filter.mpr ⟨h, by simp⟩, rfl⟩
  rw [PgDb.maxOffset]
  cases hmax : ((d.rowsOf r.streamRunId).map (fun r => r.event.commitOffset)).max? with
  | none =>
    rw [List.max?_eq_none_iff.mp hmax] at hmem
    cases hmem
  | some m => exact (List.max?_eq_some_iff.mp hmax).2 _ hmem

section
variable (server : PgServer) (hashtextextended : String → Int) (jsonb : Payload → Except PyError Payload)

/-- What a stored payload is read back as. -/
def kept (payload : Option Payload) : Option Payload := (storedPayload jsonb payload).toOption.getD none

/-- What a stored event is read back as. -/
def returned (event : RuntimeEvent) : RuntimeEvent :=
  { event with payloadJson := kept jsonb event.payloadJson }

/-- The rows of the events of a commit from the index `idx` on. -/
def rowsFrom (runId : String) (seq : Nat) (nextOffset : Int) : List RuntimeEvent → Nat → List PgEventRow
  | [], _ => []
  | event :: rest, idx =>
    eventRow runId seq nextOffset idx event (kept jsonb event.payloadJson) ::
      rowsFrom runId seq nextOffset rest (idx + 1)

/-- The rows of a commit, at the next offsets of its run. -/
def commitRows (commit : ActionCommit) (seq : Nat) (d : PgDb) : List PgEventRow :=
  rowsFrom jsonb commit.runId seq (d.maxOffset commit.runId + 1) commit.events 0

/-- A commit is appended under a number nobody has used. -/
def Appended (commit : ActionCommit) (ref : String) (d d' : PgDb) : Prop :=
  ∃ seq, seq ∉ d.commits.rows.map CommitRow.commitSequence ∧ ref = commitRef seq ∧
    Added d d' [BundleDb.commitRow commit seq] (commitRows jsonb commit seq d)

/-- Why an append may raise by itself: the commit has no events, a payload has no form, a text
cannot be held, or the run id cannot be indexed. -/
inductive Refused (commit : ActionCommit) : PyError → Prop where
  | empty (h : commit.events = []) : Refused commit emptyCommit
  | payload {event : RuntimeEvent} {e : PyError} (hmem : event ∈ commit.events)
    (h : storedPayload jsonb event.payloadJson = .error e) : Refused commit e
  | text {t : String} (hmem : some t ∈ commitTexts commit ++ commit.events.flatMap eventTexts)
    (h : server.encodable t = false) : Refused commit characterNotInRepertoire
  | key (hne : commit.events ≠ []) (h : server.indexable commit.runId = false) :
    Refused commit indexRowSize

/-! ### What the sessions owe each other -/

/-- A lock guards the rows of the runs that hash to it, and a number is used once. -/
def runs : Discipline PgDb Int where
  Same := fun k d d' => ∀ runId, hashtextextended runId = k → d'.rowsOf runId = d.rowsOf runId
  Grows := fun _ _ => True
  Fresh := fun n d => n ∉ d.commits.rows.map CommitRow.commitSequence
  same_refl := fun _ _ _ _ => rfl
  same_trans := fun _ _ _ _ h h' runId hk => (h' runId hk).trans (h runId hk)
  grows_refl := fun _ => trivial
  grows_trans := fun _ _ _ _ _ => trivial

end

section
variable {server : PgServer} {hashtextextended : String → Int} {jsonb : Payload → Except PyError Payload}

/-- What an append has read stays true until it commits. -/
structure Ready (runId : String) (seq : Nat) (last : Int) (d : PgDb) : Prop where
  last : d.maxOffset runId = last
  fresh : seq ∉ d.commits.rows.map CommitRow.commitSequence

theorem maxOffset_congr {d d' : PgDb} {runId : String} (h : d'.rowsOf runId = d.rowsOf runId) :
    d'.maxOffset runId = d.maxOffset runId := by
  rw [PgDb.maxOffset, PgDb.maxOffset, h]

theorem Ready.interfered {runId : String} {seq : Nat} {last : Int} {locks : Int → Prop} {drew : List Nat}
    {seen seen' : Versions PgDb} (h : Ready runId seq last seen.current)
    (hi : (runs hashtextextended).Interfered locks drew seen seen') (hlock : locks (hashtextextended runId))
    (hdrew : seq ∈ drew) : Ready runId seq last seen'.current where
  last := (maxOffset_congr (hi.relies.same _ hlock runId rfl)).trans h.last
  fresh := hi.relies.fresh seq hdrew h.fresh

/-- The rows an append has written when it comes to the index `idx`. -/
structure Written (runId : String) (seq : Nat) (nextOffset : Int) (idx : Nat) (r : PgEventRow) : Prop where
  run : r.streamRunId = runId
  commit : r.commitSequence = seq
  index : r.eventIndex < idx
  offset : r.event.commitOffset = nextOffset + r.eventIndex

/-- **The next row of an append finds its keys free.** -/
theorem free_next {runId : String} {seq : Nat} {last : Int} {idx : Nat} {d d' : PgDb}
    {commitRow : CommitRow} {rows : List PgEventRow} (hready : Ready runId seq last d)
    (hadded : Added d d' [commitRow] rows) (hseq : commitRow.commitSequence = seq)
    (hrows : ∀ r ∈ rows, Written runId seq (last + 1) idx r) (event : RuntimeEvent)
    (payload : Option Payload) : Free (eventRow runId seq (last + 1) idx event payload) d' := by
  have hold : ∀ r ∈ d.events.rows, r.commitSequence ≠ seq := by
    intro r hr heq
    exact hready.fresh (heq ▸ d.foreignKey r hr)
  refine ⟨?_, ?_, ?_⟩
  · rw [Table.select_eq_none_iff, hadded.events, List.map_append, List.mem_append]
    rintro (hmem | hmem)
    · obtain ⟨r, hr, hkey⟩ := List.mem_map.mp hmem
      obtain ⟨hrun, hoffset⟩ := Prod.mk.inj hkey
      have hle := le_maxOffset hr
      have hrun : r.streamRunId = runId := hrun
      have hoffset : r.event.commitOffset = last + 1 + idx := hoffset
      rw [hrun, hready.last, hoffset] at hle
      omega
    · obtain ⟨r, hr, hkey⟩ := List.mem_map.mp hmem
      obtain ⟨_, hoffset⟩ := Prod.mk.inj hkey
      have hoffset : r.event.commitOffset = last + 1 + idx := hoffset
      have hat := (hrows r hr).offset
      have hlt := (hrows r hr).index
      omega
  · rw [hadded.events, List.map_append, List.mem_append]
    rintro (hmem | hmem)
    · obtain ⟨r, hr, hkey⟩ := List.mem_map.mp hmem
      exact hold r hr (Prod.mk.inj hkey).1
    · obtain ⟨r, hr, hkey⟩ := List.mem_map.mp hmem
      have hidx : r.eventIndex = idx := (Prod.mk.inj hkey).2
      have hlt := (hrows r hr).index
      omega
  · rw [hadded.commits, List.map_append, List.map_singleton, hseq]
    exact List.mem_append_right _ (List.mem_singleton.mpr rfl)

/-- What an append adds leaves the runs of other hashes and the other numbers alone. -/
theorem owes_of_added {commit : ActionCommit} {seq : Nat} {locks : Int → Prop} {d d' : PgDb}
    {rows : List PgEventRow} (hadded : Added d d' [BundleDb.commitRow commit seq] rows)
    (hrows : ∀ r ∈ rows, r.streamRunId = commit.runId) (hlock : locks (hashtextextended commit.runId)) :
    (runs hashtextextended).Owes locks [seq] d d' where
  same := by
    intro k hk runId hhash
    have hne : commit.runId ≠ runId := by
      rintro rfl
      exact hk (hhash ▸ hlock)
    have hnone : rows.filter (fun r => r.streamRunId = runId) = [] := by
      refine List.filter_eq_nil_iff.mpr (fun r hr => ?_)
      rw [hrows r hr]
      simpa using hne
    rw [PgDb.rowsOf, hadded.events, List.filter_append, hnone, List.append_nil]
    rfl
  fresh := by
    intro n hn hfresh
    show n ∉ d'.commits.rows.map CommitRow.commitSequence
    rw [hadded.commits, List.map_append, List.mem_append]
    rintro (hmem | hmem)
    · exact hfresh hmem
    · exact hn hmem
  grows := trivial

theorem rowsFrom_written (runId : String) (seq : Nat) (nextOffset : Int) (events : List RuntimeEvent)
    (idx : Nat) :
    ∀ r ∈ rowsFrom jsonb runId seq nextOffset events idx,
      Written runId seq nextOffset (idx + events.length) r := by
  induction events generalizing idx with
  | nil => exact fun _ hr => nomatch hr
  | cons event rest ih =>
    intro r hr
    rcases List.mem_cons.mp hr with rfl | hr
    · refine ⟨rfl, rfl, ?_, rfl⟩
      show idx < idx + (event :: rest).length
      rw [List.length_cons]
      omega
    · obtain ⟨hrun, hcommit, hindex, hoffset⟩ := ih (idx + 1) r hr
      refine ⟨hrun, hcommit, ?_, hoffset⟩
      rw [List.length_cons]
      omega

/-! ### An append is sound -/

/-- How an append ends. -/
abbrev EndsAppended (server : PgServer) (hashtextextended : String → Int)
    (jsonb : Payload → Except PyError Payload) (commit : ActionCommit) (tx : AppendTx) (locks : Int → Prop) (drew : List Nat) (redo : PgDb → PgDb)
    (seen : Versions PgDb) : Prop :=
  (runs hashtextextended).Sound (fun _ ref seen d => Appended jsonb commit ref seen.current d)
    (fun e _ => Refused server jsonb commit e) tx locks drew redo seen

theorem refusal_eq_some_iff {texts : List (Option String)} {e : PyError} :
    server.refusal texts = some e ↔
      (∃ t, some t ∈ texts ∧ server.encodable t = false) ∧ e = characterNotInRepertoire := by
  have hencodes : server.encodes texts = false ↔ ∃ t, some t ∈ texts ∧ server.encodable t = false := by
    rw [PgServer.encodes, List.all_eq_false]
    constructor
    · rintro ⟨text, hmem, hnot⟩
      cases text with
      | none => exact absurd rfl hnot
      | some t => exact ⟨t, hmem, Bool.eq_false_iff.mpr hnot⟩
    · rintro ⟨t, hmem, hnot⟩
      exact ⟨some t, hmem, Bool.eq_false_iff.mp hnot⟩
  rw [← hencodes, PgServer.refusal]
  cases server.encodes texts <;> simp [eq_comm]

/-- The texts of an event row are the commit's. -/
theorem refused_of_texts {commit : ActionCommit} {event : RuntimeEvent} (hmem : event ∈ commit.events)
    {seq idx : Nat} {nextOffset : Int} {payload : Option Payload} {e : PyError}
    (h : server.refusal (eventRow commit.runId seq nextOffset idx event payload).texts = some e) :
    Refused server jsonb commit e := by
  obtain ⟨⟨t, ht, hnot⟩, rfl⟩ := refusal_eq_some_iff.mp h
  refine .text ?_ hnot
  rcases List.mem_cons.mp ht with hrun | htext
  · exact List.mem_append_left _ (hrun ▸ List.mem_cons_self)
  · exact List.mem_append_right _ (List.mem_flatMap.mpr ⟨event, hmem, htext⟩)

/-- From any index on: the rows written so far are there whenever the transaction looks. -/
theorem insertEventsTx_sound {commit : ActionCommit} {seq : Nat} {last : Int} {locks : Int → Prop}
    (hlock : locks (hashtextextended commit.runId)) (rest : List RuntimeEvent)
    (hrest : ∀ event ∈ rest, event ∈ commit.events) (idx : Nat) (written : List PgEventRow)
    {redo : PgDb → PgDb} {seen : Versions PgDb} (hready : Ready commit.runId seq last seen.current)
    (hrows : ∀ r ∈ written, Written commit.runId seq (last + 1) idx r)
    (hredo : ∀ d, Ready commit.runId seq last d →
      Added d (redo d) [BundleDb.commitRow commit seq] written)
    (hall : written ++ rowsFrom jsonb commit.runId seq (last + 1) rest idx =
      rowsFrom jsonb commit.runId seq (last + 1) commit.events 0) :
    EndsAppended server hashtextextended jsonb commit
      (insertEventsTx server jsonb commit.runId seq (last + 1) rest idx (.commit (commitRef seq))) locks [seq]
      redo seen := by
  induction rest generalizing idx redo seen written locks with
  | nil =>
    intro seen' hi
    have hnow := hready.interfered hi hlock (List.mem_singleton.mpr rfl)
    have hadded := hredo _ hnow
    refine ⟨⟨seq, hnow.fresh, rfl, hadded.commits, ?_⟩, owes_of_added hadded (fun r hr => (hrows r hr).run) hlock⟩
    rw [hadded.events, commitRows, hnow.last, ← hall, rowsFrom, List.append_nil]
  | cons event rest ih =>
    simp only [insertEventsTx]
    cases hstored : storedPayload jsonb event.payloadJson with
    | error e => exact fun _ _ => .payload (hrest event List.mem_cons_self) hstored
    | ok payload =>
      have hkept : kept jsonb event.payloadJson = payload := by
        rw [kept, hstored]
        rfl
      have hfree : ∀ d, Ready commit.runId seq last d →
          Free (eventRow commit.runId seq (last + 1) idx event payload) (redo d) :=
        fun d hd => free_next hd (hredo d hd) rfl hrows event payload
      refine Discipline.Sound.exec ?_ ?_
      · intro seen' _ d' hi hdone
        obtain ⟨htexts, hkey⟩ := insertEvent_accepted hdone
        refine ih (.inl hlock) (fun e he => hrest e (List.mem_cons_of_mem _ he)) (idx + 1)
          (written ++ [eventRow commit.runId seq (last + 1) idx event payload])
          (hready.interfered hi hlock (List.mem_singleton.mpr rfl)) ?_ ?_ ?_
        · intro r hr
          rcases List.mem_append.mp hr with hr | hr
          · obtain ⟨hrun, hcommit, hindex, hoffset⟩ := hrows r hr
            exact ⟨hrun, hcommit, Nat.lt_succ_of_lt hindex, hoffset⟩
          · rw [List.mem_singleton.mp hr]
            exact ⟨rfl, rfl, Nat.lt_succ_self idx, rfl⟩
        · intro d hd
          obtain ⟨d'', hok, hadded⟩ := insertEvent_ok (hfree d hd) htexts hkey
          rw [Tx.effect_ok hok]
          exact (hredo d hd).trans hadded
        · rw [← hall, rowsFrom, hkept, List.append_assoc]
          rfl
      · intro seen' e hi herr seen'' _
        have hevent := hrest event List.mem_cons_self
        rcases insertEvent_refused (hfree _ (hready.interfered hi hlock (List.mem_singleton.mpr rfl))) herr
          with htexts | ⟨hkey, rfl⟩
        · exact refused_of_texts hevent htexts
        · exact .key (List.ne_nil_of_mem hevent) hkey

/-- **An append beside others**: the lock makes the offsets it read good until it commits. -/
theorem appendTx_sound (commit : ActionCommit) (d : PgDb) :
    EndsAppended server hashtextextended jsonb commit (appendTx server hashtextextended jsonb commit)
      (fun _ => False) [] id ⟨[], d⟩ := by
  unfold appendTx
  split
  · rename_i hempty
    exact fun _ _ => .empty (List.isEmpty_iff.mp hempty)
  · rename_i hne
    have hne : commit.events ≠ [] := fun h => hne (List.isEmpty_iff.mpr h)
    have htext : ∀ {texts e}, (∀ t ∈ texts, t ∈ commitTexts commit) → server.refusal texts = some e →
        Refused server jsonb commit e := by
      intro texts e hsub hrefused
      obtain ⟨⟨t, ht, hnot⟩, rfl⟩ := refusal_eq_some_iff.mp hrefused
      exact .text (List.mem_append_left _ (hsub _ ht)) hnot
    split
    · rename_i e hrefused
      refine fun _ _ => htext ?_ hrefused
      intro t ht
      rw [List.mem_singleton.mp ht]
      exact List.mem_cons_self
    refine Discipline.Sound.exec ?_ (fun _ _ _ herr => nomatch herr)
    intro seen _ _ _ _
    refine Discipline.Sound.exec ?_ (fun _ _ _ herr => nomatch herr)
    intro seen' last _ _ hlast
    obtain ⟨rfl, _⟩ := Prod.mk.inj (Except.ok.inj hlast)
    unfold insertCommitTx
    split
    · rename_i e hrefused
      exact fun _ _ => htext (fun _ ht => ht) hrefused
    intro seen'' hi n hfresh
    have hready : Ready commit.runId n (seen'.current.maxOffset commit.runId) seen''.current :=
      ⟨maxOffset_congr (hi.relies.same _ (.inl (.inr rfl)) commit.runId rfl), hfresh⟩
    have hnext : ∀ d, Ready commit.runId n (seen'.current.maxOffset commit.runId) d →
        ∃ d', PgDb.insertCommit commit n d = .ok ((), d') ∧
          Added d d' [BundleDb.commitRow commit n] [] := fun d hd => insertCommit_ok hne hd.fresh
    refine Discipline.Sound.exec ?_ ?_
    · intro seen₃ _ _ hi' _
      refine insertEventsTx_sound (.inl (.inl (.inr rfl))) commit.events (fun _ he => he) 0 []
        (hready.interfered hi' (.inl (.inr rfl)) (List.mem_singleton.mpr rfl)) (fun _ hr => nomatch hr) ?_
        (List.nil_append _)
      intro d' hd'
      obtain ⟨d'', hok, hadded⟩ := hnext d' hd'
      show Added d' (Tx.effect (PgDb.insertCommit commit n) d') _ _
      rw [Tx.effect_ok hok]
      exact hadded
    · intro seen₃ e hi' herr
      obtain ⟨d', hok, _⟩ := hnext _
        (hready.interfered hi' (.inl (.inr rfl)) (List.mem_singleton.mpr rfl))
      have herr' : PgDb.insertCommit commit n seen₃.current = .error e := herr
      rw [hok] at herr'
      cases herr'

/-! ### The journal -/

/-- The rows of every run are the events of the journal. -/
def Stores (jsonb : Payload → Except PyError Payload) (d : PgDb) (j : Journal) : Prop :=
  ∀ runId, (d.rowsOf runId).map PgEventRow.event = (j.eventsOf runId).map (returned jsonb)

theorem stores_empty : Stores jsonb .empty .empty := fun _ => rfl

namespace Stores
variable {d : PgDb} {j : Journal}

theorem offsets (h : Stores jsonb d j) (runId : String) :
    (d.rowsOf runId).map (fun r => r.event.commitOffset) =
      (j.eventsOf runId).map RuntimeEvent.commitOffset := by
  have hoffsets := congrArg (List.map RuntimeEvent.commitOffset) (h runId)
  rw [List.map_map, List.map_map] at hoffsets
  exact hoffsets

/-- The last offset of a run is that of the journal. -/
theorem maxOffset (h : Stores jsonb d j) (runId : String) : d.maxOffset runId = j.lastOffset runId := by
  rw [PgDb.maxOffset, h.offsets]
  cases hmax : ((j.eventsOf runId).map RuntimeEvent.commitOffset).max? with
  | none =>
    have hnil := List.map_eq_nil_iff.mp (List.max?_eq_none_iff.mp hmax)
    rw [Journal.lastOffset, hnil]
    rfl
  | some m =>
    obtain ⟨hmem, hle⟩ := List.max?_eq_some_iff.mp hmax
    obtain ⟨event, hevent, rfl⟩ := List.mem_map.mp hmem
    refine Int.le_antisymm ?_ ?_
    · rw [← j.lastIndex_eventsOf runId]
      exact (j.indexed runId).le_lastIndex hevent
    · have hpos : 0 < (j.eventsOf runId).length := List.length_pos_of_mem hevent
      have hlt : (j.eventsOf runId).length - 1 < (j.eventsOf runId).length := by omega
      have hlast := j.numbered runId _ hlt
      have hbound := hle _ (List.mem_map.mpr ⟨_, List.get_mem _ ⟨_, hlt⟩, rfl⟩)
      have hbound : ((j.eventsOf runId).get ⟨_, hlt⟩).commitOffset ≤ event.commitOffset := hbound
      have hlast : ((j.eventsOf runId).get ⟨_, hlt⟩).commitOffset =
        ((j.eventsOf runId).length - 1 : Nat) + 1 := hlast
      rw [Journal.lastOffset, Option.getD_some]
      omega

/-- The rows of a run stand in the order of their offsets. -/
theorem sorted (h : Stores jsonb d j) (runId : String) :
    (d.rowsOf runId).Pairwise (fun a b => a.event.commitOffset < b.event.commitOffset) := by
  have hpairwise := (j.indexed runId).sorted
  rw [← List.pairwise_map, ← h.offsets, List.pairwise_map] at hpairwise
  exact hpairwise

/-- What a query reads is what the journal loads. -/
theorem load (h : Stores jsonb d j) (runId : String) (afterOffset : Int) :
    PostgresKernelRuntimeEventLog.load d runId afterOffset =
      (j.load runId afterOffset).map (returned jsonb) := by
  have hsplit : d.events.rows.filter
      (fun r => r.streamRunId = runId ∧ afterOffset < r.event.commitOffset) =
        (d.rowsOf runId).filter (fun r => afterOffset < r.event.commitOffset) := by
    rw [PgDb.rowsOf, List.filter_filter]
    refine List.filter_congr (fun r _ => ?_)
    simp [Bool.and_comm]
  have hsorted : ((d.rowsOf runId).filter (fun r => afterOffset < r.event.commitOffset)).mergeSort
      (fun a b => a.event.commitOffset ≤ b.event.commitOffset) =
        (d.rowsOf runId).filter (fun r => afterOffset < r.event.commitOffset) := by
    refine List.mergeSort_of_pairwise (((h.sorted runId).filter _).imp (fun hlt => ?_))
    simpa using Int.le_of_lt hlt
  have hreads : ((d.rowsOf runId).filter (fun r => afterOffset < r.event.commitOffset)).map
      PgEventRow.event = ((d.rowsOf runId).map PgEventRow.event).filter
        (fun e => e.commitOffset > afterOffset) := by
    rw [List.filter_map]
    rfl
  rw [PostgresKernelRuntimeEventLog.load, hsplit, hsorted, hreads, h runId, List.filter_map]
  rfl

theorem events_rowsFrom (runId : String) (seq : Nat) (nextOffset : Int) (events : List RuntimeEvent)
    (idx : Nat) :
    (rowsFrom jsonb runId seq nextOffset events idx).map PgEventRow.event =
      (numberedFrom (nextOffset + idx) events).map (returned jsonb) := by
  induction events generalizing idx with
  | nil => rfl
  | cons event rest ih =>
    have hnext : nextOffset + ((idx + 1 : Nat) : Int) = nextOffset + idx + 1 := by omega
    rw [rowsFrom, numberedFrom, List.map_cons, List.map_cons, ih (idx + 1), hnext]
    rfl

/-- An append of the log is an append of the journal. -/
theorem append (h : Stores jsonb d j) {commit : ActionCommit} {ref : String} {d' : PgDb}
    (happended : Appended jsonb commit ref d d') : Stores jsonb d' (j.append commit) := by
  obtain ⟨seq, _, _, hadded⟩ := happended
  have hrun : ∀ r ∈ commitRows jsonb commit seq d, r.streamRunId = commit.runId :=
    fun r hr => (rowsFrom_written _ _ _ _ _ r hr).run
  intro runId
  rw [Journal.eventsOf_append, PgDb.rowsOf, hadded.events, List.filter_append, List.map_append]
  split
  · rename_i heq
    subst heq
    rw [List.filter_eq_self.mpr (fun r hr => decide_eq_true (hrun r hr)), List.map_append, commitRows,
      events_rowsFrom, h.maxOffset]
    refine congrArg₂ (· ++ ·) (h commit.runId) ?_
    rw [Int.natCast_zero, Int.add_zero]
  · rename_i hne
    have hnone : (commitRows jsonb commit seq d).filter (fun r => r.streamRunId = runId) = [] := by
      refine List.filter_eq_nil_iff.mpr (fun r hr => ?_)
      rw [hrun r hr]
      simpa using Ne.symm hne
    rw [hnone, List.map_nil, List.append_nil]
    exact h runId

end Stores

/-! ### Every run -/

section
variable {ι : Type}

abbrev LogHistory (ι : Type) := History ι PyError PgDb ActionCommit String

/-- The commits that were committed, in the order in which they were. -/
def appended (h : LogHistory ι) : List ActionCommit :=
  h.entries.filterMap (fun e => e.outcome.toOption.map (fun _ => e.call))

/-- The references of these commits, in the same order. -/
def refs (h : LogHistory ι) : List String := h.entries.filterMap (fun e => e.outcome.toOption)

theorem appended_commit (h : LogHistory ι) (i : ι) (commit : ActionCommit) (since : Nat) (ref : String)
    (d : PgDb) : appended (h.commit i commit since ref d) = appended h ++ [commit] := by
  simp [appended, History.commit, Except.toOption]

theorem refs_commit (h : LogHistory ι) (i : ι) (commit : ActionCommit) (since : Nat) (ref : String)
    (d : PgDb) : refs (h.commit i commit since ref d) = refs h ++ [ref] := by
  simp [refs, History.commit, Except.toOption]

theorem appended_raise (h : LogHistory ι) (i : ι) (commit : ActionCommit) (since : Nat) (e : PyError) :
    appended (h.raise i commit since e) = appended h := by
  simp [appended, History.raise, Except.toOption]

theorem refs_raise (h : LogHistory ι) (i : ι) (commit : ActionCommit) (since : Nat) (e : PyError) :
    refs (h.raise i commit since e) = refs h := by
  simp [refs, History.raise, Except.toOption]

variable [DecidableEq ι]

/-- The server after any steps of its sessions. -/
abbrev serverAfter (server : PgServer) (hashtextextended : String → Int)
    (jsonb : Payload → Except PyError Payload) (steps : List (SessionStep ι ActionCommit)) : Server ι PyError PgDb Int ActionCommit String :=
  run (Server.next (appendTx server hashtextextended jsonb)) (.init .empty) steps

/-- **Whatever the order of their statements, and wherever sessions break off, the log is
the journal of what they committed**, in the order of the commits: every reader loads, of
every run, the events appended so far, numbered from one. -/
theorem log_is_journal (server : PgServer) (hashtextextended : String → Int)
    (jsonb : Payload → Except PyError Payload) (steps : List (SessionStep ι ActionCommit)) (runId : String) (afterOffset : Int) :
    load (serverAfter server hashtextextended jsonb steps).current runId afterOffset =
        ((journalOf (appended (serverAfter server hashtextextended jsonb steps).history)).load runId
          afterOffset).map (returned jsonb) ∧
      (serverAfter server hashtextextended jsonb steps).current.maxOffset runId =
        (journalOf (appended (serverAfter server hashtextextended jsonb steps).history)).lastOffset runId := by
  have hstores := run_rule (D := runs hashtextextended)
    (J := fun h : LogHistory ι => Stores jsonb h.versions.current (journalOf (appended h)))
    (@appendTx_sound server hashtextextended jsonb) (d := .empty) (fun _ _ hmem => nomatch hmem) stores_empty
    (fun h i commit since drew ref d hstores _ happended => by
      rw [appended_commit, journalOf, run_append]
      exact hstores.append happended)
    (fun h i commit since e hstores _ _ => by
      rw [appended_raise]
      exact hstores) steps
  exact ⟨hstores.load runId afterOffset, hstores.maxOffset runId⟩

/-- No append is refused for a key it finds taken, every commit has a reference of its own
and a row of its own, and all its events or none are there. -/
structure Settled (server : PgServer) (jsonb : Payload → Except PyError Payload) (h : LogHistory ι) : Prop where
  refused : ∀ e ∈ h.entries, ∀ err, e.outcome = .error err → Refused server jsonb e.call err
  numbered : ∃ seqs : List Nat, seqs.length = (appended h).length ∧ refs h = seqs.map commitRef ∧
    h.versions.current.commits.rows = List.zipWith BundleDb.commitRow (appended h) seqs
  whole : ∀ c ∈ h.versions.current.commits.rows,
    h.versions.current.events.rows.countP (fun r => r.commitSequence = c.commitSequence) = c.eventCount

theorem commitRef_injective {m n : Nat} (h : commitRef m = commitRef n) : m = n :=
  Text.natText_injective ((String.append_right_inj "commit-ref-").mp h)

omit [DecidableEq ι] in
/-- Two commits never have one reference. -/
theorem Settled.refs_nodup {h : LogHistory ι} (hs : Settled server jsonb h) : (refs h).Nodup := by
  obtain ⟨seqs, hlen, hrefs, hrows⟩ := hs.numbered
  have hseqs : h.versions.current.commits.rows.map CommitRow.commitSequence = seqs := by
    rw [hrows, ← List.map_uncurry_zip_eq_zipWith, List.map_map]
    exact List.map_snd_zip (Nat.le_of_eq hlen)
  have hunique := h.versions.current.commits.unique
  rw [hseqs] at hunique
  rw [hrefs]
  exact hunique.map (fun _ _ heq => commitRef_injective heq)

theorem length_rowsFrom (runId : String) (seq : Nat) (nextOffset : Int) (events : List RuntimeEvent)
    (idx : Nat) : (rowsFrom jsonb runId seq nextOffset events idx).length = events.length := by
  induction events generalizing idx with
  | nil => rfl
  | cons event rest ih => rw [rowsFrom, List.length_cons, List.length_cons, ih]

/-- The rows of a number are those its commit added. -/
theorem count_added {commit : ActionCommit} {seq : Nat} {d d' : PgDb}
    (hfresh : seq ∉ d.commits.rows.map CommitRow.commitSequence)
    (hadded : Added d d' [BundleDb.commitRow commit seq] (commitRows jsonb commit seq d)) (n : Nat) :
    d'.events.rows.countP (fun r => r.commitSequence = n) =
      if n = seq then commit.events.length else d.events.rows.countP (fun r => r.commitSequence = n) := by
  have hnew : ∀ r ∈ commitRows jsonb commit seq d, r.commitSequence = seq :=
    fun r hr => (rowsFrom_written _ _ _ _ _ r hr).commit
  rw [hadded.events, List.countP_append]
  split
  · rename_i heq
    have hold : d.events.rows.countP (fun r => r.commitSequence = n) = 0 := by
      refine List.countP_eq_zero.mpr (fun r hr hn => ?_)
      rw [decide_eq_true_eq, heq] at hn
      exact hfresh (hn ▸ d.foreignKey r hr)
    have hall : (commitRows jsonb commit seq d).countP (fun r => r.commitSequence = n) =
        (commitRows jsonb commit seq d).length := by
      refine List.countP_eq_length.mpr (fun r hr => ?_)
      rw [decide_eq_true_eq, heq]
      exact hnew r hr
    rw [hold, hall, commitRows, length_rowsFrom, Nat.zero_add]
  · rename_i hne
    have hnone : (commitRows jsonb commit seq d).countP (fun r => r.commitSequence = n) = 0 := by
      refine List.countP_eq_zero.mpr (fun r hr hn => ?_)
      rw [decide_eq_true_eq, hnew r hr] at hn
      exact hne hn.symm
    rw [hnone, Nat.add_zero]

omit [DecidableEq ι] in
theorem Settled.commit {h : LogHistory ι} (hs : Settled server jsonb h) (i : ι) {commit : ActionCommit}
    (since : Nat) {ref : String} {d : PgDb} (happended : Appended jsonb commit ref h.versions.current d) :
    Settled server jsonb (h.commit i commit since ref d) := by
  obtain ⟨seq, hfresh, rfl, hadded⟩ := happended
  refine ⟨?_, ?_, ?_⟩
  · intro e he err herr
    rcases List.mem_append.mp he with he | he
    · exact hs.refused e he err herr
    · rw [List.mem_singleton.mp he] at herr
      cases herr
  · obtain ⟨seqs, hlen, hrefs, hrows⟩ := hs.numbered
    refine ⟨seqs ++ [seq], ?_, ?_, ?_⟩
    · rw [appended_commit, List.length_append, List.length_append, hlen, List.length_singleton,
        List.length_singleton]
    · rw [refs_commit, hrefs, List.map_append, List.map_singleton]
    · rw [appended_commit, List.zipWith_append hlen.symm, ← hrows]
      exact hadded.commits
  · intro c hc
    show d.events.rows.countP (fun r => r.commitSequence = c.commitSequence) = _
    rw [count_added hfresh hadded]
    have hmem : c ∈ h.versions.current.commits.rows ++ [BundleDb.commitRow commit seq] :=
      hadded.commits ▸ hc
    rcases List.mem_append.mp hmem with hold | hnew
    · rw [if_neg]
      · exact hs.whole c hold
      · intro heq
        exact hfresh (heq ▸ List.mem_map_of_mem hold)
    · rw [List.mem_singleton.mp hnew]
      exact if_pos rfl

theorem settled_after (server : PgServer) (hashtextextended : String → Int)
    (jsonb : Payload → Except PyError Payload) (steps : List (SessionStep ι ActionCommit)) :
    Settled server jsonb (serverAfter server hashtextextended jsonb steps).history :=
  run_rule (D := runs hashtextextended) (J := fun h : LogHistory ι => Settled server jsonb h)
    (@appendTx_sound server hashtextextended jsonb) (d := .empty) (fun _ _ hmem => nomatch hmem)
    ⟨fun _ he => (nomatch he), ⟨[], rfl, rfl, rfl⟩, fun _ hc => (nomatch hc)⟩
    (fun h i commit since drew ref d hs _ happended => hs.commit i since happended)
    (fun h i commit since e hs _ hrefused =>
      ⟨fun entry he err herr => by
        rcases List.mem_append.mp he with he | he
        · exact hs.refused entry he err herr
        · obtain rfl := List.mem_singleton.mp he
          obtain rfl := Except.error.inj herr
          exact hrefused,
      by rw [appended_raise, refs_raise]; exact hs.numbered, hs.whole⟩) steps

/-- **Every append is settled.** -/
theorem appends_settled (server : PgServer) (hashtextextended : String → Int)
    (jsonb : Payload → Except PyError Payload) (steps : List (SessionStep ι ActionCommit)) :
    Settled server jsonb (serverAfter server hashtextextended jsonb steps).history ∧
      (refs (serverAfter server hashtextextended jsonb steps).history).Nodup :=
  ⟨settled_after server hashtextextended jsonb steps, (settled_after server hashtextextended jsonb steps).refs_nodup⟩

theorem insertEventsTx_oneLock (server : PgServer) (jsonb : Payload → Except PyError Payload)
    (runId : String) (seq : Nat) (nextOffset : Int) {done : AppendTx} {held : Option Int} (hdone : done.OneLock held)
    (rest : List RuntimeEvent) (idx : Nat) :
    (insertEventsTx server jsonb runId seq nextOffset rest idx done).OneLock held := by
  induction rest generalizing idx with
  | nil => exact hdone
  | cons event rest ih =>
    simp only [insertEventsTx]
    cases storedPayload jsonb event.payloadJson with
    | error e => exact trivial
    | ok payload =>
      refine .exec (fun _ _ => .inl rfl) (fun _ _ => ?_)
      rw [Option.or_none]
      exact ih (idx + 1)

theorem appendTx_oneLock (server : PgServer) (hashtextextended : String → Int)
    (jsonb : Payload → Except PyError Payload) (commit : ActionCommit) : (appendTx server hashtextextended jsonb commit).OneLock none := by
  unfold appendTx
  split
  · exact trivial
  · split
    · exact trivial
    refine .exec (fun h => absurd rfl h) (fun _ _ => .exec (fun _ _ => .inl rfl) (fun _ _ => ?_))
    unfold insertCommitTx
    split
    · exact trivial
    intro n
    refine .exec (fun _ _ => .inl rfl) (fun _ _ => ?_)
    exact insertEventsTx_oneLock server jsonb _ _ _ (show Tx.OneLock (.commit (commitRef n)) _ from trivial) _ _

/-- **No append waits for ever.** Whatever the sessions have done and wherever they stand, also
when runs share a lock, each append can be brought to its end by steps of the sessions alone,
and then it is committed, unless the commit itself is refused. -/
theorem appends_finish (server : PgServer) (hashtextextended : String → Int)
    (jsonb : Payload → Except PyError Payload) (steps : List (SessionStep ι ActionCommit)) (i : ι) :
    ∃ more : List (SessionStep ι ActionCommit), (∀ step ∈ more, ∃ j, step = .advance j) ∧
      (serverAfter server hashtextextended jsonb (steps ++ more)).sessions i = none ∧
      ∀ o ∈ (serverAfter server hashtextextended jsonb steps).sessions i,
        ∃ e ∈ (serverAfter server hashtextextended jsonb (steps ++ more)).history.entries,
          e.session = i ∧ e.call = o.call ∧ e.since = o.since ∧
            ∀ err, e.outcome = .error err → Refused server jsonb o.call err := by
  obtain ⟨more, hmore, hended, hentry⟩ :=
    run_finishes (appendTx_oneLock server hashtextextended jsonb) .empty steps i
  refine ⟨more, hmore, hended, fun o ho => ?_⟩
  obtain ⟨e, he, hsession, hcall, hsince⟩ := hentry o ho
  refine ⟨e, he, hsession, hcall, hsince, fun err herr => ?_⟩
  rw [← hcall]
  exact (settled_after server hashtextextended jsonb (steps ++ more)).refused e he err herr

end

end

end PostgresKernelRuntimeEventLog
end AgentKernel.Persistence
