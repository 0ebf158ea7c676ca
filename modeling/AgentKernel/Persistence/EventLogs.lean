import Mathlib.Data.Finset.Card
import AgentKernel.Persistence.SqliteEventLog

/-! Which events the event logs keep whole.

The three logs take the same commits. Each of them holds the journal of the commits,
without what its rows leave out (`tracks_logsAfter`): no log keeps a schema version, and
the bundle's log reads an empty text as absent. `event_logs_faithful_iff` says when all
of them load what was appended. -/
namespace AgentKernel.Persistence
open Lib Events

/-! ### The three logs -/

structure EventLogs where
  inMemory : InMemoryKernelRuntimeEventLog
  sqlite : Conn BundleDb
  shared : Conn BundleDb

namespace EventLogs

def empty : EventLogs := ⟨.empty, Conn.idle .empty [], Conn.idle .empty []⟩

/-- The same commit is appended to each; a commit without events is refused by all. -/
def append (logs : EventLogs) (commit : ActionCommit) : EventLogs where
  inMemory := (InMemoryKernelRuntimeEventLog.appendActionCommit commit).after logs.inMemory
  sqlite := (SQLiteKernelRuntimeEventLog.appendActionCommit commit).after logs.sqlite
  shared := (SharedEventLog.appendActionCommit commit).after logs.shared

end EventLogs

def logsAfter (commits : List ActionCommit) : EventLogs := run EventLogs.append .empty commits

/-- The events appended for every run, in order and numbered from one. -/
def journalOf (commits : List ActionCommit) : Journal := run Journal.append .empty commits

/-! ### What the logs hold -/

/-- The logs hold the events of the journal, as far as they keep them, and the log in
memory has dropped no run. -/
structure Tracks (runs : List String) (logs : EventLogs) (j : Journal) : Prop where
  inMemory : ∀ runId, logs.inMemory.eventsOf runId = (j.eventsOf runId).map (stored id)
  retained : ∀ runId ∈ logs.inMemory.eventsByRun.keys, runId ∈ runs
  sqlite : ∃ d, logs.sqlite = Conn.idle d [] ∧ Stores Value.sortPayload d j
  shared : ∃ d, logs.shared = Conn.idle d [] ∧ Stores id d j

/-- A log that holds no more runs than it retains drops none. -/
theorem size_le_of_keys {log : InMemoryKernelRuntimeEventLog} {runs : List String}
    (hruns : runs.toFinset.card ≤ maxRetainedRuns)
    (hkeys : ∀ runId ∈ log.eventsByRun.keys, runId ∈ runs) :
    log.eventsByRun.size ≤ maxRetainedRuns := by
  rw [← Dict.length_keys, ← List.toFinset_card_of_nodup log.eventsByRun.keys_nodup]
  refine Nat.le_trans (Finset.card_le_card ?_) hruns
  intro runId hmem
  exact List.mem_toFinset.mpr (hkeys runId (List.mem_toFinset.mp hmem))

theorem normalizedFrom_eq_map (next : Int) (events : List RuntimeEvent) :
    normalizedFrom next events = (numberedFrom next events).map (stored id) := by
  induction events generalizing next with
  | nil => rfl
  | cons event rest ih =>
    rw [normalizedFrom, numberedFrom, List.map_cons, ih]
    congr 1
    simp [normalized, stored, withPayload]

theorem eventsOf_append_nil (j : Journal) {commit : ActionCommit} (h : commit.events = [])
    (runId : String) : (j.append commit).eventsOf runId = j.eventsOf runId := by
  rw [j.eventsOf_append, h, numberedFrom, List.append_nil, ite_self]

namespace Tracks
variable {runs : List String} {logs : EventLogs} {j : Journal}

/-- A refused commit changes nothing. -/
theorem append_nil (h : Tracks runs logs j) {commit : ActionCommit} (hnil : commit.events = []) :
    Tracks runs (logs.append commit) (j.append commit) := by
  have hlogs : logs.append commit = logs := by
    have hinMemory := InMemoryKernelRuntimeEventLog.after_append_nil logs.inMemory hnil
    have hsqlite : SQLiteKernelRuntimeEventLog.appendActionCommit commit = throw emptyCommit := by
      simp [SQLiteKernelRuntimeEventLog.appendActionCommit, hnil]
    have hshared : SharedEventLog.appendActionCommit commit = throw emptyCommit := by
      simp [SharedEventLog.appendActionCommit, hnil]
    rw [EventLogs.append, hinMemory, hsqlite, hshared]
    rfl
  rw [hlogs]
  have hstores : ∀ enc d, Stores enc d j → Stores enc d (j.append commit) := by
    intro enc d hd runId
    rw [eventsOf_append_nil j hnil]
    exact hd runId
  obtain ⟨d, hd, hsd⟩ := h.sqlite
  obtain ⟨d', hd', hsd'⟩ := h.shared
  refine ⟨?_, h.retained, ⟨d, hd, hstores _ d hsd⟩, ⟨d', hd', hstores _ d' hsd'⟩⟩
  intro runId
  rw [eventsOf_append_nil j hnil]
  exact h.inMemory runId

/-- The log in memory records a commit of one of the runs. -/
theorem record (h : Tracks runs logs j) (hruns : runs.toFinset.card ≤ maxRetainedRuns)
    {commit : ActionCommit} (hmem : commit.runId ∈ runs) (hne : commit.events ≠ []) :
    (InMemoryKernelRuntimeEventLog.appendActionCommit commit).after logs.inMemory =
        logs.inMemory.record commit ∧
      ∀ runId ∈ (logs.inMemory.record commit).eventsByRun.keys, runId ∈ runs := by
  have hkeys : ∀ runId ∈ (logs.inMemory.record commit).eventsByRun.keys, runId ∈ runs := by
    intro runId hrun
    rw [InMemoryKernelRuntimeEventLog.record, Dict.keys_set] at hrun
    split at hrun
    · exact h.retained runId hrun
    · rcases List.mem_append.mp hrun with hrun | hrun
      · exact h.retained runId hrun
      · rw [List.mem_singleton.mp hrun]
        exact hmem
  refine ⟨?_, hkeys⟩
  rw [InMemoryKernelRuntimeEventLog.after_append hne,
    InMemoryKernelRuntimeEventLog.eventsOf_evict_of_le (size_le_of_keys hruns hkeys)]

/-- Every log takes a commit of serialisable events. -/
theorem append (h : Tracks runs logs j) (hruns : runs.toFinset.card ≤ maxRetainedRuns)
    {commit : ActionCommit} (hmem : commit.runId ∈ runs)
    (hser : ∀ event ∈ commit.events, Serialisable event) :
    Tracks runs (logs.append commit) (j.append commit) := by
  by_cases hne : commit.events = []
  · exact h.append_nil hne
  obtain ⟨hrecord, hkeys⟩ := h.record hruns hmem hne
  obtain ⟨d, hd, hstores⟩ := h.sqlite
  obtain ⟨ref, d₁, hok, hadds⟩ := SQLiteKernelRuntimeEventLog.appendActionCommit_idle hne hser d
  obtain ⟨d', hd', hstores'⟩ := h.shared
  obtain ⟨ref', d₁', hok', hadds'⟩ := SharedEventLog.appendActionCommit_idle hne hser d'
  refine ⟨?_, ?_, ⟨d₁, ?_, hstores.append hadds⟩, ⟨d₁', ?_, hstores'.append hadds'⟩⟩
  · intro runId
    have hcount : logs.inMemory.nextOffset runId = (logs.inMemory.eventsOf runId).length + 1 :=
      logs.inMemory.counted runId
    rw [EventLogs.append, hrecord, InMemoryKernelRuntimeEventLog.eventsOf_record,
      Journal.eventsOf_append]
    split
    · rw [hcount, normalizedFrom_eq_map, h.inMemory runId, List.length_map, List.map_append,
        Journal.lastOffset]
    · exact h.inMemory runId
  · intro runId hrun
    rw [EventLogs.append, hrecord] at hrun
    exact hkeys runId hrun
  · rw [EventLogs.append, hd]
    exact (Call.outcome_ok hok).2
  · rw [EventLogs.append, hd']
    exact (Call.outcome_ok hok').2

end Tracks

/-- **The logs hold the journal of their commits.** -/
theorem tracks_logsAfter {commits : List ActionCommit}
    (hser : ∀ commit ∈ commits, ∀ event ∈ commit.events, Serialisable event)
    (hruns : (commits.map ActionCommit.runId).toFinset.card ≤ maxRetainedRuns) :
    Tracks (commits.map ActionCommit.runId) (logsAfter commits) (journalOf commits) := by
  refine run_related (A := fun commit => commit ∈ commits) ?_ ?_ commits (fun _ h => h)
  · intro logs j commit hmem h
    exact h.append hruns (List.mem_map.mpr ⟨commit, hmem, rfl⟩) (hser commit hmem)
  · exact ⟨fun _ => rfl, fun _ h => (nomatch h), ⟨.empty, rfl, stores_empty _⟩,
      ⟨.empty, rfl, stores_empty _⟩⟩

/-! ### Faithfulness -/

/-- Equal in every field; payloads are dictionaries, so the order of their keys is
nothing. -/
def SameEvents (events events' : List RuntimeEvent) : Prop :=
  events.map (withPayload Value.sortPayload) = events'.map (withPayload Value.sortPayload)

/-- Every log loads the events appended for the run past the offset. -/
structure Faithful (commits : List ActionCommit) (runId : String) (afterOffset : Int) : Prop where
  inMemory : SameEvents ((logsAfter commits).inMemory.load runId afterOffset)
    ((journalOf commits).load runId afterOffset)
  sqlite : ∃ events, (SQLiteKernelRuntimeEventLog.load runId afterOffset).outcome
      (logsAfter commits).sqlite = .ok events ∧
    SameEvents events ((journalOf commits).load runId afterOffset)
  shared : ∃ events, (SharedEventLog.load runId afterOffset).outcome
      (logsAfter commits).shared = .ok events ∧
    SameEvents events ((journalOf commits).load runId afterOffset)

/-- An event the logs keep whole: of the current schema version, with no empty text where
there could be none. -/
structure KeptWhole (event : RuntimeEvent) : Prop where
  schemaVersion : event.schemaVersion = "1"
  idempotencyKey : event.idempotencyKey ≠ some ""
  payloadRef : event.payloadRef ≠ some ""

theorem sameEvents_map_iff {read : RuntimeEvent → RuntimeEvent} {events : List RuntimeEvent} :
    SameEvents (events.map read) events ↔ ∀ event ∈ events,
      withPayload Value.sortPayload (read event) = withPayload Value.sortPayload event := by
  rw [SameEvents, List.map_map]
  exact List.map_inj_left

/-- The rows lose the schema version, whatever order they put the keys in. -/
theorem stored_same_iff {enc : Payload → Payload}
    (henc : ∀ items, Value.sortPayload (enc items) = Value.sortPayload items) (event : RuntimeEvent) :
    withPayload Value.sortPayload (stored enc event) = withPayload Value.sortPayload event ↔
      event.schemaVersion = "1" := by
  have hpayload : (event.payloadJson.map enc).map Value.sortPayload =
      event.payloadJson.map Value.sortPayload := by
    rw [Option.map_map]
    congr 1
    funext items
    exact henc items
  constructor
  · intro h
    exact (congrArg RuntimeEvent.schemaVersion h).symm
  · intro h
    simp only [stored, withPayload, hpayload, ← h]

theorem orElse_none_eq_iff (text : Option String) : Text.orElse text none = text ↔ text ≠ some "" := by
  cases text with
  | none => simp [Text.orElse]
  | some s =>
    by_cases hs : s = "" <;> simp [Text.orElse, hs]

/-- The bundle's log reads the same row with its empty texts absent. -/
def nonEmptyTexts (event : RuntimeEvent) : RuntimeEvent :=
  { event with
    idempotencyKey := Text.orElse event.idempotencyKey none
    payloadRef := Text.orElse event.payloadRef none }

theorem nonEmptyTexts_same_iff (event : RuntimeEvent) :
    withPayload Value.sortPayload (nonEmptyTexts (stored id event)) =
      withPayload Value.sortPayload event ↔ KeptWhole event := by
  constructor
  · intro h
    exact ⟨(congrArg RuntimeEvent.schemaVersion h).symm,
      (orElse_none_eq_iff _).mp (congrArg RuntimeEvent.idempotencyKey h),
      (orElse_none_eq_iff _).mp (congrArg RuntimeEvent.payloadRef h)⟩
  · intro h
    have hkey := (orElse_none_eq_iff _).mpr h.idempotencyKey
    have href := (orElse_none_eq_iff _).mpr h.payloadRef
    simp only [nonEmptyTexts, stored, withPayload, Option.map_id, id_eq, hkey, href,
      ← h.schemaVersion]

/-! ### What each log loads -/

namespace Tracks
variable {runs : List String} {logs : EventLogs} {j : Journal}

theorem load_inMemory (h : Tracks runs logs j) (runId : String) (afterOffset : Int) :
    logs.inMemory.load runId afterOffset = (j.load runId afterOffset).map (stored id) := by
  rw [InMemoryKernelRuntimeEventLog.load, h.inMemory runId, List.filter_map]
  rfl

theorem load_sqlite (h : Tracks runs logs j) (runId : String) {afterOffset : Int}
    (hfits : FitsInt64 afterOffset) :
    (SQLiteKernelRuntimeEventLog.load runId afterOffset).outcome logs.sqlite =
      .ok ((j.load runId afterOffset).map (stored Value.sortPayload)) := by
  obtain ⟨d, hd, hstores⟩ := h.sqlite
  obtain ⟨rows, hsel, hrows⟩ := hstores.selectEvents runId afterOffset
  rw [SQLiteKernelRuntimeEventLog.load, if_pos hfits, Call.outcome_map, hd, ← hrows]
  have hexec := Conn.exec_idle busy
    (SQLiteKernelRuntimeEventLog.own (BundleDb.selectEvents runId afterOffset)) d
  rw [SQLiteKernelRuntimeEventLog.own_ok _ hsel] at hexec
  rw [(Call.outcome_ok hexec).1]
  rfl

theorem load_shared (h : Tracks runs logs j) (runId : String) {afterOffset : Int}
    (hfits : FitsInt64 afterOffset) :
    (SharedEventLog.load runId afterOffset).outcome logs.shared =
      .ok ((j.load runId afterOffset).map (fun event => nonEmptyTexts (stored id event))) := by
  obtain ⟨d, hd, hstores⟩ := h.shared
  obtain ⟨rows, hsel, hrows⟩ := hstores.selectEvents runId afterOffset
  rw [SharedEventLog.load, if_pos hfits, Call.outcome_map, hd]
  have hexec := Conn.exec_idle busy (BundleDb.selectEvents runId afterOffset) d
  rw [hsel] at hexec
  rw [(Call.outcome_ok hexec).1]
  have hread := congrArg (List.map nonEmptyTexts) hrows
  rw [List.map_map, List.map_map] at hread
  exact congrArg Except.ok hread

end Tracks

/-- **The event logs load what was appended exactly when they keep it whole.** The commits
are any sequence of at most as many runs as the log in memory retains, with payloads that
have a JSON form. -/
theorem event_logs_faithful_iff (commits : List ActionCommit) (runId : String) (afterOffset : Int)
    (hser : ∀ commit ∈ commits, ∀ event ∈ commit.events, Serialisable event)
    (hruns : (commits.map ActionCommit.runId).toFinset.card ≤ maxRetainedRuns) :
    Faithful commits runId afterOffset ↔
      FitsInt64 afterOffset ∧
        ∀ event ∈ (journalOf commits).load runId afterOffset, KeptWhole event := by
  have htracks := tracks_logsAfter hser hruns
  constructor
  · intro h
    have hfits : FitsInt64 afterOffset := by
      by_contra hnot
      obtain ⟨events, hload, _⟩ := h.shared
      rw [SharedEventLog.load, if_neg hnot] at hload
      cases hload
    refine ⟨hfits, ?_⟩
    obtain ⟨events, hload, hsame⟩ := h.shared
    rw [htracks.load_shared runId hfits] at hload
    cases hload
    intro event hevent
    exact (nonEmptyTexts_same_iff event).mp (sameEvents_map_iff.mp hsame event hevent)
  · intro hcond
    obtain ⟨hfits, hwhole⟩ := hcond
    refine ⟨?_, ⟨_, htracks.load_sqlite runId hfits, ?_⟩, ⟨_, htracks.load_shared runId hfits, ?_⟩⟩
    · rw [htracks.load_inMemory]
      exact sameEvents_map_iff.mpr (fun event he =>
        (stored_same_iff (fun _ => rfl) event).mpr (hwhole event he).schemaVersion)
    · exact sameEvents_map_iff.mpr (fun event he =>
        (stored_same_iff Value.sortPayload_idem event).mpr (hwhole event he).schemaVersion)
    · exact sameEvents_map_iff.mpr (fun event he =>
        (nonEmptyTexts_same_iff event).mpr (hwhole event he))

/-- An event written before the current schema, alone in its run. -/
def oldEvent : RuntimeEvent :=
  { runId := "run-1"
    eventId := "evt-1"
    commitOffset := 1
    eventType := "run.created"
    eventClass := .fact
    eventAuthority := .authoritativeFact
    orderingKey := "run-1"
    wakePolicy := .wakeActor
    createdAt := "2026-04-01T00:00:00Z"
    payloadJson := some [("b", .int 1), ("a", .str "x")]
    schemaVersion := "2" }

def oldCommit : ActionCommit :=
  { runId := "run-1", commitId := "commit-1", events := [oldEvent], createdAt := "2026-04-01T00:00:00Z" }

theorem serialisable_oldCommit :
    ∀ commit ∈ [oldCommit], ∀ event ∈ commit.events, Serialisable event := by
  intro commit hcommit event hevent
  obtain rfl := List.mem_singleton.mp hcommit
  obtain rfl := List.mem_singleton.mp hevent
  intro items hitems
  cases hitems
  rfl

theorem faithful_current_version :
    Faithful [{ oldCommit with events := [{ oldEvent with schemaVersion := "1" }] }] "run-1" 0 := by
  refine (event_logs_faithful_iff _ _ _ ?_ (by decide)).mpr ⟨by decide, ?_⟩
  · intro commit hcommit event hevent
    obtain rfl := List.mem_singleton.mp hcommit
    obtain rfl := List.mem_singleton.mp hevent
    intro items hitems
    cases hitems
    rfl
  · intro event hevent
    obtain rfl := List.mem_singleton.mp hevent
    exact ⟨rfl, by decide, by decide⟩

/-- No log gives the old event back: its schema version reads as the current one. -/
theorem schema_version_lost :
    (∀ commit ∈ [oldCommit], ∀ event ∈ commit.events, Serialisable event) ∧
      ([oldCommit].map ActionCommit.runId).toFinset.card ≤ maxRetainedRuns ∧
      ¬ Faithful [oldCommit] "run-1" 0 := by
  refine ⟨serialisable_oldCommit, by decide, ?_⟩
  intro h
  have hload : (logsAfter [oldCommit]).inMemory.load "run-1" 0 =
      ((journalOf [oldCommit]).load "run-1" 0).map (stored id) := rfl
  have hsame := h.inMemory
  rw [hload, sameEvents_map_iff] at hsame
  have hversion := (stored_same_iff (fun _ => rfl) oldEvent).mp (hsame oldEvent List.mem_cons_self)
  exact absurd hversion (by decide)

end AgentKernel.Persistence
