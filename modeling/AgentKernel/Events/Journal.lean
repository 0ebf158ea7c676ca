import AgentKernel.Events.Log

/-! The journal: what an event log is for.

For every run the events appended for it, in order, numbered from one; nothing else
of an event changes and nothing is dropped. The workflow is written against it, and
the event logs are compared with it. -/
namespace AgentKernel.Events
open Lib

/-- The events numbered from an offset on. -/
def numberedFrom (nextOffset : Int) : List RuntimeEvent → List RuntimeEvent
  | [] => []
  | event :: rest => { event with commitOffset := nextOffset } :: numberedFrom (nextOffset + 1) rest

theorem length_numberedFrom (next : Int) (events : List RuntimeEvent) :
    (numberedFrom next events).length = events.length := by
  induction events generalizing next with
  | nil => rfl
  | cons e rest ih => simp [numberedFrom, ih]

theorem get_numberedFrom (next : Int) (events : List RuntimeEvent) (i : Nat)
    (h : i < (numberedFrom next events).length) :
    ((numberedFrom next events).get ⟨i, h⟩).commitOffset = next + i := by
  induction events generalizing next i with
  | nil => cases h
  | cons e rest ih =>
    cases i with
    | zero => simp [numberedFrom]
    | succ j =>
      have hj := ih (next + 1) j (by simpa [numberedFrom] using h)
      simp only [numberedFrom, List.get_eq_getElem, List.getElem_cons_succ] at hj ⊢
      rw [hj]
      push_cast
      omega

/-- What does not depend on the offset is not changed by the numbering. -/
theorem exists_numberedFrom {P : RuntimeEvent → Prop}
    (hP : ∀ e offset, P { e with commitOffset := offset } ↔ P e) (next : Int)
    (events : List RuntimeEvent) : (∃ e ∈ numberedFrom next events, P e) ↔ ∃ e ∈ events, P e := by
  induction events generalizing next with
  | nil => exact Iff.rfl
  | cons e rest ih => simp [numberedFrom, hP, ih]

/-- A log that is numbered stays so when it is continued. -/
theorem numbered_continue {events new : List RuntimeEvent} (h : Numbered events)
    (hnew : ∀ i (hi : i < new.length), (new.get ⟨i, hi⟩).commitOffset = events.length + 1 + i) :
    Numbered (events ++ new) := by
  intro i hi
  by_cases hlt : i < events.length
  · have hold := h i hlt
    simp only [List.get_eq_getElem] at hold ⊢
    rw [List.getElem_append_left hlt]
    exact hold
  · have hge : events.length ≤ i := Nat.le_of_not_lt hlt
    have hoff := hnew (i - events.length) (by rw [List.length_append] at hi; omega)
    simp only [List.get_eq_getElem] at hoff ⊢
    rw [List.getElem_append_right hge, hoff]
    omega

theorem le_foldl_max (events : List RuntimeEvent) (m : Int) :
    m ≤ events.foldl (fun m event => max m event.commitOffset) m ∧
      ∀ event ∈ events, event.commitOffset ≤ events.foldl (fun m event => max m event.commitOffset) m := by
  induction events generalizing m with
  | nil => simp
  | cons event rest ih =>
    obtain ⟨hm, hrest⟩ := ih (max m event.commitOffset)
    rw [List.foldl_cons]
    refine ⟨by omega, fun e he => ?_⟩
    rcases List.mem_cons.mp he with rfl | he
    · omega
    · exact hrest e he

theorem foldl_max_le {events : List RuntimeEvent} {m bound : Int} (hm : m ≤ bound)
    (hevents : ∀ event ∈ events, event.commitOffset ≤ bound) :
    events.foldl (fun m event => max m event.commitOffset) m ≤ bound := by
  induction events generalizing m with
  | nil => exact hm
  | cons event rest ih =>
    exact ih (Int.max_le.mpr ⟨hm, hevents event List.mem_cons_self⟩)
      (fun e he => hevents e (List.mem_cons_of_mem _ he))

structure Journal where
  eventsByRun : Dict String (List RuntimeEvent)
  numbered : ∀ runId, Numbered ((eventsByRun.get? runId).getD [])

namespace Journal

def empty : Journal := ⟨Dict.empty, numbered_empty⟩

def eventsOf (j : Journal) (runId : String) : List RuntimeEvent := (j.eventsByRun.get? runId).getD []

/-- The offset of the last event of a run. -/
def lastOffset (j : Journal) (runId : String) : Int := (j.eventsOf runId).length

/-- The events of a commit are added to its run. -/
def append (j : Journal) (commit : ActionCommit) : Journal where
  eventsByRun := j.eventsByRun.set commit.runId
    (j.eventsOf commit.runId ++ numberedFrom (j.lastOffset commit.runId + 1) commit.events)
  numbered := by
    intro runId
    rw [Dict.get?_set]
    split
    · refine numbered_continue (j.numbered commit.runId) (fun i hi => ?_)
      rw [get_numberedFrom, lastOffset, eventsOf]
    · exact j.numbered runId

def load (j : Journal) (runId : String) (afterOffset : Int) : List RuntimeEvent :=
  (j.eventsOf runId).filter (fun event => event.commitOffset > afterOffset)

theorem eventsOf_append (j : Journal) (commit : ActionCommit) (runId : String) :
    (j.append commit).eventsOf runId =
      if runId = commit.runId then
        j.eventsOf runId ++ numberedFrom (j.lastOffset runId + 1) commit.events
      else j.eventsOf runId := by
  show (((j.append commit).eventsByRun).get? runId).getD [] = _
  rw [append, Dict.get?_set]
  split
  · rename_i h
    rw [h]
    rfl
  · rfl

theorem indexed (j : Journal) (runId : String) :
    Indexed RuntimeEvent.commitOffset (j.eventsOf runId) :=
  InMemoryKernelRuntimeEventLog.indexed_of_numbered (j.numbered runId)

/-- The last index of a run is the number of its events. -/
theorem lastIndex_eventsOf (j : Journal) (runId : String) :
    lastIndex RuntimeEvent.commitOffset (j.eventsOf runId) = j.lastOffset runId := by
  unfold lastIndex lastOffset
  rw [List.getLast?_eq_getElem?]
  by_cases hempty : (j.eventsOf runId).length = 0
  · rw [List.length_eq_zero_iff.mp hempty]
    rfl
  · have hlt : (j.eventsOf runId).length - 1 < (j.eventsOf runId).length := by omega
    have hn : ((j.eventsOf runId)[(j.eventsOf runId).length - 1]).commitOffset =
      ((j.eventsOf runId).length - 1 : Nat) + 1 := j.numbered runId _ hlt
    rw [List.getElem?_eq_getElem hlt, Option.map_some, Option.getD_some, hn]
    omega

/-- The events a commit adds come after everything its run had. -/
theorem lt_of_mem_new {j : Journal} {runId : String} {events : List RuntimeEvent} {e : RuntimeEvent}
    (h : e ∈ numberedFrom (j.lastOffset runId + 1) events) : j.lastOffset runId < e.commitOffset := by
  obtain ⟨i, hi, rfl⟩ := List.mem_iff_getElem.mp h
  have hoff := get_numberedFrom (j.lastOffset runId + 1) events i hi
  simp only [List.get_eq_getElem] at hoff
  omega

/-- What is loaded past an offset the run has reached is continued. -/
theorem load_append {j : Journal} {runId : String} {offset : Int} (h : offset ≤ j.lastOffset runId)
    (commit : ActionCommit) :
    (j.append commit).load runId offset =
      if runId = commit.runId then
        j.load runId offset ++ numberedFrom (j.lastOffset runId + 1) commit.events
      else j.load runId offset := by
  unfold load
  rw [eventsOf_append]
  split
  · have hnew : (numberedFrom (j.lastOffset runId + 1) commit.events).filter
        (fun event => event.commitOffset > offset) =
          numberedFrom (j.lastOffset runId + 1) commit.events := by
      refine List.filter_eq_self.mpr (fun e he => ?_)
      have hlt := lt_of_mem_new he
      rw [decide_eq_true_eq]
      omega
    rw [List.filter_append, hnew]
  · rfl

theorem lastOffset_append (j : Journal) (commit : ActionCommit) (runId : String) :
    (j.append commit).lastOffset runId =
      j.lastOffset runId + if runId = commit.runId then (commit.events.length : Int) else 0 := by
  unfold lastOffset
  rw [j.eventsOf_append]
  split
  · rw [List.length_append, length_numberedFrom]
    push_cast
    rfl
  · omega

theorem lastOffset_le_append (j : Journal) (commit : ActionCommit) (runId : String) :
    j.lastOffset runId ≤ (j.append commit).lastOffset runId := by
  unfold lastOffset
  rw [eventsOf_append]
  split
  · rw [List.length_append]
    omega
  · exact Int.le_refl _

theorem lastOffset_nonneg (j : Journal) (runId : String) : 0 ≤ j.lastOffset runId :=
  Int.natCast_nonneg _

/-- What is loaded was appended. -/
theorem le_lastOffset_of_mem_load {j : Journal} {runId : String} {offset : Int} {event : RuntimeEvent}
    (h : event ∈ j.load runId offset) : event.commitOffset ≤ j.lastOffset runId := by
  rw [← j.lastIndex_eventsOf runId]
  exact (j.indexed runId).le_lastIndex (List.mem_filter.mp h).1

/-- From the start on, everything is loaded. -/
theorem load_zero (j : Journal) (runId : String) : j.load runId 0 = j.eventsOf runId := by
  refine List.filter_eq_self.mpr (fun e he => ?_)
  obtain ⟨i, hi, rfl⟩ := List.mem_iff_getElem.mp he
  have hoff := j.numbered runId i hi
  simp only [List.get_eq_getElem] at hoff
  simp only [decide_eq_true_eq]
  show (0 : Int) < ((j.eventsByRun.get? runId).getD [])[i].commitOffset
  omega

/-- An event of a run came with one of the commits to it. -/
theorem exists_eventsOf_run {P : RuntimeEvent → Prop}
    (hP : ∀ e offset, P { e with commitOffset := offset } ↔ P e) (commits : List ActionCommit)
    (j : Journal) (runId : String) :
    (∃ e ∈ (run append j commits).eventsOf runId, P e) ↔
      (∃ e ∈ j.eventsOf runId, P e) ∨
        ∃ commit ∈ commits, commit.runId = runId ∧ ∃ e ∈ commit.events, P e := by
  induction commits generalizing j with
  | nil => simp
  | cons commit rest ih =>
    rw [run_cons, ih, eventsOf_append]
    have hcons : (∃ c ∈ commit :: rest, c.runId = runId ∧ ∃ e ∈ c.events, P e) ↔
        (commit.runId = runId ∧ ∃ e ∈ commit.events, P e) ∨
          ∃ c ∈ rest, c.runId = runId ∧ ∃ e ∈ c.events, P e := by
      simp only [List.mem_cons, exists_eq_or_imp]
    rw [hcons, ← or_assoc]
    refine or_congr_left ?_
    by_cases hrun : runId = commit.runId
    · subst hrun
      simp only [if_true, List.mem_append, or_and_right, exists_or, true_and]
      exact or_congr_right (exists_numberedFrom hP _ _)
    · have hne : commit.runId ≠ runId := fun h => hrun h.symm
      simp [hrun, hne]

end Journal
end AgentKernel.Events
