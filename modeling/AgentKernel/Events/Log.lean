import AgentKernel.Lib.Call
import AgentKernel.Lib.Dict
import AgentKernel.Lib.Replay
import AgentKernel.Contracts

/-! The in-memory event log.

Offsets are assigned on append, from one upwards for each run. The log retains a
bounded number of runs: when an append makes it exceed the bound, it drops the run
whose first event is oldest, with its counter. -/
namespace AgentKernel.Events
open Lib

/-- `_MAX_RETAINED_RUNS`. -/
def maxRetainedRuns : Nat := 5000

/-- The event as it is stored: a new offset, and the default schema version. -/
def normalized (event : RuntimeEvent) (offset : Int) : RuntimeEvent :=
  { event with commitOffset := offset, schemaVersion := "1" }

/-- The events of a commit, numbered from an offset on. -/
def normalizedFrom (nextOffset : Int) : List RuntimeEvent → List RuntimeEvent
  | [] => []
  | event :: rest => normalized event nextOffset :: normalizedFrom (nextOffset + 1) rest

/-- The offsets of these events count up from one. -/
def Numbered (events : List RuntimeEvent) : Prop :=
  ∀ i (h : i < events.length), (events.get ⟨i, h⟩).commitOffset = i + 1

structure InMemoryKernelRuntimeEventLog where
  eventsByRun : Dict String (List RuntimeEvent)
  nextOffsetByRun : Dict String Int
  commitSequence : Nat
  numbered : ∀ runId, Numbered ((eventsByRun.get? runId).getD [])
  counted : ∀ runId, (nextOffsetByRun.get? runId).getD 1 = ((eventsByRun.get? runId).getD []).length + 1

/-- No events are numbered. -/
theorem numbered_empty (runId : String) :
    Numbered (((Dict.empty : Dict String (List RuntimeEvent)).get? runId).getD []) :=
  fun i h => absurd h (Nat.not_lt_zero i)

namespace InMemoryKernelRuntimeEventLog

def empty : InMemoryKernelRuntimeEventLog where
  eventsByRun := Dict.empty
  nextOffsetByRun := Dict.empty
  commitSequence := 0
  numbered := numbered_empty
  counted := fun _ => rfl

/-- What `load` from the start returns. -/
def eventsOf (log : InMemoryKernelRuntimeEventLog) (runId : String) : List RuntimeEvent :=
  (log.eventsByRun.get? runId).getD []

def nextOffset (log : InMemoryKernelRuntimeEventLog) (runId : String) : Int :=
  (log.nextOffsetByRun.get? runId).getD 1

theorem length_normalizedFrom (next : Int) (events : List RuntimeEvent) :
    (normalizedFrom next events).length = events.length := by
  induction events generalizing next with
  | nil => rfl
  | cons e rest ih => simp [normalizedFrom, ih]

theorem get_normalizedFrom (next : Int) (events : List RuntimeEvent) (i : Nat)
    (h : i < (normalizedFrom next events).length) :
    ((normalizedFrom next events).get ⟨i, h⟩).commitOffset = next + i := by
  induction events generalizing next i with
  | nil => cases h
  | cons e rest ih =>
    cases i with
    | zero => simp [normalizedFrom, normalized]
    | succ j =>
      have hj := ih (next + 1) j (by simpa [normalizedFrom] using h)
      simp only [normalizedFrom, List.get_eq_getElem, List.getElem_cons_succ] at hj ⊢
      rw [hj]
      push_cast
      omega

theorem numbered_append {events : List RuntimeEvent} (h : Numbered events) (new : List RuntimeEvent) :
    Numbered (events ++ normalizedFrom (events.length + 1) new) := by
  intro i hi
  by_cases hlt : i < events.length
  · have hold := h i hlt
    simp only [List.get_eq_getElem] at hold ⊢
    rw [List.getElem_append_left hlt]
    exact hold
  · have hge : events.length ≤ i := Nat.le_of_not_lt hlt
    have hnew := get_normalizedFrom (events.length + 1) new (i - events.length)
      (by rw [List.length_append] at hi; omega)
    simp only [List.get_eq_getElem] at hnew ⊢
    rw [List.getElem_append_right hge, hnew]
    omega

/-- The commit's events are added to its run. -/
def record (log : InMemoryKernelRuntimeEventLog) (commit : ActionCommit) :
    InMemoryKernelRuntimeEventLog where
  eventsByRun := log.eventsByRun.set commit.runId
    (log.eventsOf commit.runId ++ normalizedFrom (log.nextOffset commit.runId) commit.events)
  nextOffsetByRun := log.nextOffsetByRun.set commit.runId
    (log.nextOffset commit.runId + commit.events.length)
  commitSequence := log.commitSequence + 1
  numbered := by
    intro runId
    rw [Dict.get?_set]
    split
    · rw [Option.getD_some, nextOffset, log.counted]
      exact numbered_append (log.numbered commit.runId) commit.events
    · exact log.numbered runId
  counted := by
    intro runId
    rw [Dict.get?_set, Dict.get?_set]
    split
    · rw [Option.getD_some, Option.getD_some, List.length_append, length_normalizedFrom, nextOffset,
        log.counted, eventsOf]
      push_cast
      omega
    · exact log.counted runId

/-- `cleanup_completed_run`, and what happens to an evicted run: it is dropped, events and
counter. -/
def cleanupCompletedRun (log : InMemoryKernelRuntimeEventLog) (runId : String) :
    InMemoryKernelRuntimeEventLog where
  eventsByRun := log.eventsByRun.erase runId
  nextOffsetByRun := log.nextOffsetByRun.erase runId
  commitSequence := log.commitSequence
  numbered := by
    intro other
    rw [Dict.get?_erase]
    split
    · exact fun i h => absurd h (Nat.not_lt_zero i)
    · exact log.numbered other
  counted := by
    intro other
    rw [Dict.get?_erase, Dict.get?_erase]
    split
    · rfl
    · exact log.counted other

/-- Evict the oldest run when there are too many. -/
def evict (log : InMemoryKernelRuntimeEventLog) : InMemoryKernelRuntimeEventLog :=
  if log.eventsByRun.size > maxRetainedRuns then
    match log.eventsByRun.keys with
    | oldest :: _ => log.cleanupCompletedRun oldest
    | [] => log
  else log

def appendActionCommit (commit : ActionCommit) : Call PyError InMemoryKernelRuntimeEventLog String := do
  if commit.events.isEmpty then throw emptyCommit
  else do
    modify (fun log => (log.record commit).evict)
    let log ← get
    pure ("commit-ref-" ++ toString log.commitSequence)

def load (log : InMemoryKernelRuntimeEventLog) (runId : String) (afterOffset : Int) : List RuntimeEvent :=
  (log.eventsOf runId).filter (fun event => event.commitOffset > afterOffset)

/-! ### What an append does to a run -/

theorem indexed_of_numbered {events : List RuntimeEvent} (h : Numbered events) :
    Indexed RuntimeEvent.commitOffset events := by
  constructor
  · rw [List.pairwise_iff_getElem]
    intro i j hi hj hij
    have hoff := h i hi
    have hoff' := h j hj
    simp only [List.get_eq_getElem] at hoff hoff'
    rw [hoff, hoff']
    omega
  · intro x hx
    obtain ⟨i, hi, rfl⟩ := List.mem_iff_getElem.mp hx
    have hoff := h i hi
    simp only [List.get_eq_getElem] at hoff
    rw [hoff]
    omega

/-- The offsets of a run are strictly increasing. -/
theorem indexed (log : InMemoryKernelRuntimeEventLog) (runId : String) :
    Indexed RuntimeEvent.commitOffset (log.eventsOf runId) :=
  indexed_of_numbered (log.numbered runId)

theorem eventsOf_record (log : InMemoryKernelRuntimeEventLog) (commit : ActionCommit) (runId : String) :
    (log.record commit).eventsOf runId =
      if runId = commit.runId then
        log.eventsOf runId ++ normalizedFrom (log.nextOffset runId) commit.events
      else log.eventsOf runId := by
  show (((log.record commit).eventsByRun).get? runId).getD [] = _
  rw [record, Dict.get?_set]
  split
  · rename_i h
    rw [h]
    rfl
  · rfl

/-- New events come after everything the run had. -/
theorem lt_of_mem_new {log : InMemoryKernelRuntimeEventLog} {runId : String} {events : List RuntimeEvent}
    {e : RuntimeEvent} (h : e ∈ normalizedFrom (log.nextOffset runId) events) :
    lastIndex RuntimeEvent.commitOffset (log.eventsOf runId) < e.commitOffset := by
  obtain ⟨i, hi, rfl⟩ := List.mem_iff_getElem.mp h
  have hoff := get_normalizedFrom (log.nextOffset runId) events i hi
  simp only [List.get_eq_getElem] at hoff
  have hcount : log.nextOffset runId = (log.eventsOf runId).length + 1 := log.counted runId
  have hlast : lastIndex RuntimeEvent.commitOffset (log.eventsOf runId) ≤ (log.eventsOf runId).length := by
    unfold lastIndex
    rw [List.getLast?_eq_getElem?]
    by_cases hempty : (log.eventsOf runId).length = 0
    · rw [List.length_eq_zero_iff.mp hempty]
      exact Int.le_refl 0
    · have hlt : (log.eventsOf runId).length - 1 < (log.eventsOf runId).length := by omega
      have hn := log.numbered runId _ hlt
      rw [List.getElem?_eq_getElem hlt]
      simp only [List.get_eq_getElem, Option.map_some, Option.getD_some] at hn ⊢
      show ((log.eventsOf runId)[(log.eventsOf runId).length - 1]).commitOffset ≤ _
      have hoffset : ((log.eventsOf runId)[(log.eventsOf runId).length - 1]).commitOffset =
        ((log.eventsOf runId).length - 1 : Nat) + 1 := hn
      rw [hoffset]
      omega
  rw [hoff, hcount]
  omega

theorem after_append {log : InMemoryKernelRuntimeEventLog} {commit : ActionCommit}
    (hne : commit.events ≠ []) :
    (appendActionCommit commit).after log = (log.record commit).evict := by
  have hempty : commit.events.isEmpty = false := by simpa using hne
  simp only [appendActionCommit, hempty]
  rfl

theorem after_append_nil (log : InMemoryKernelRuntimeEventLog) {commit : ActionCommit}
    (h : commit.events = []) : (appendActionCommit commit).after log = log := by
  simp only [appendActionCommit, h, List.isEmpty_nil, if_true]
  rfl

theorem eventsOf_evict_of_le {log : InMemoryKernelRuntimeEventLog}
    (h : log.eventsByRun.size ≤ maxRetainedRuns) : log.evict = log := by
  unfold evict
  rw [if_neg (by omega)]

/-! ### Eviction -/

/-- A new run is retained last, and pushes out the oldest when there are too many. -/
theorem keys_evict_record (log : InMemoryKernelRuntimeEventLog) {commit : ActionCommit}
    (hnew : commit.runId ∉ log.eventsByRun.keys) :
    (log.record commit).evict.eventsByRun.keys =
      if log.eventsByRun.size < maxRetainedRuns then log.eventsByRun.keys ++ [commit.runId]
      else (log.eventsByRun.keys ++ [commit.runId]).tail := by
  have hkeys : (log.record commit).eventsByRun.keys = log.eventsByRun.keys ++ [commit.runId] := by
    rw [record, Dict.keys_set, if_neg hnew]
  have hsize : (log.record commit).eventsByRun.size = log.eventsByRun.size + 1 := by
    rw [record, Dict.size_set, if_neg hnew]
  unfold evict
  by_cases hroom : log.eventsByRun.size < maxRetainedRuns
  · rw [if_neg (by omega), if_pos hroom, hkeys]
  · rw [if_pos (by omega), if_neg hroom, hkeys]
    cases hlog : log.eventsByRun.keys with
    | nil =>
      rw [hlog] at hkeys
      exact Dict.keys_erase_head hkeys
    | cons oldest rest =>
      rw [hlog] at hkeys
      exact Dict.keys_erase_head hkeys

theorem eventsOf_of_not_mem {log : InMemoryKernelRuntimeEventLog} {runId : String}
    (h : runId ∉ log.eventsByRun.keys) : log.eventsOf runId = [] := by
  rw [eventsOf, (log.eventsByRun.get?_eq_none_iff runId).mpr h]
  rfl

end InMemoryKernelRuntimeEventLog
end AgentKernel.Events
