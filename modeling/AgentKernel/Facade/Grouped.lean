import AgentKernel.Facade.Memory
import AgentKernel.Facade.TraceState

/-! The registries of a facade, grouped by run.

What the registries of a facade hold of one run is one record, and a run they hold nothing
of has the empty one. A `Registry` keeps these records and a `FacadeMemory` keeps the
registries apart; `Groups` says that the two track the same runs and hold the same of every
run. Every operation and every query keeps it, so the facades that share a log may be read
either way (`memories_group`). -/
namespace AgentKernel.Facade
open Lib Events

/-! ### One run -/

theorem eq_empty_of_size {ν : Type} {d : Dict String ν} (h : d.size = 0) : d = Dict.empty :=
  Dict.ext_entries (List.length_eq_zero_iff.mp h)

theorem getD_fill_dict {ν : Type} (d : Dict String (Dict String ν)) (runId runId' : String)
    (v : Dict String ν) : ((fill (v.size ≠ 0) d runId v).get? runId').getD Dict.empty =
      if runId' = runId then v else (d.get? runId').getD Dict.empty := by
  unfold fill
  by_cases hv : v.size = 0
  · rw [if_neg (by simp [hv]), Dict.get?_erase, eq_empty_of_size hv]
    split <;> rfl
  · rw [if_pos (by simp [hv]), Dict.get?_set]
    split <;> rfl

theorem getD_fill_list (d : Dict String (List String)) (runId runId' : String) (v : List String) :
    ((fill (v ≠ []) d runId v).get? runId').getD [] =
      if runId' = runId then v else (d.get? runId').getD [] := by
  unfold fill
  by_cases hv : v = []
  · rw [if_neg (by simp [hv]), Dict.get?_erase, hv]
    split <;> rfl
  · rw [if_pos (by simp [hv]), Dict.get?_set]
    split <;> rfl

/-- The approvals of one run are its own. -/
theorem approvals_of_entered (approvals : List (String × String)) (refs : List String)
    (runId runId' : String) :
    ((approvals.filter (fun k => k.1 ≠ runId) ++ refs.map (fun ref => (runId, ref))).filter
      (fun k => k.1 = runId')).map Prod.snd =
      if runId' = runId then refs
      else (approvals.filter (fun k => k.1 = runId')).map Prod.snd := by
  rw [List.filter_append, List.filter_filter, List.filter_map]
  split
  · rename_i hrun
    subst hrun
    simp [Function.comp_def]
  · rename_i hrun
    have hrun' : ¬ runId = runId' := fun h => hrun h.symm
    have hothers : approvals.filter (fun k => decide (k.1 = runId') && decide (k.1 ≠ runId)) =
        approvals.filter (fun k => k.1 = runId') := by
      refine List.filter_congr (fun k _ => ?_)
      by_cases hk : k.1 = runId'
      · simp [hk, hrun]
      · simp [hk]
    rw [hothers]
    simp [Function.comp_def, hrun']

/-- An operation on the trace, as one facade sees it. -/
def Registry.operate (r : Registry) (n : Notification) (now : String) : Registry :=
  let r := if n.touches then r.touchRun n.runId else r
  match (r.of n.runId).perform now n with
  | .raised | .dropped => r
  | .goesOn record => r.update n.runId record

theorem TraceWorld.facades_operate (w : TraceWorld) (i : Nat) (n : Notification) (stamp : Stamp) :
    (w.operate i n stamp).facades =
      Function.update w.facades i ((w.facades i).operate n stamp.now) := by
  unfold TraceWorld.operate Registry.operate
  generalize (if n.touches then (w.facades i).touchRun n.runId else w.facades i) = r
  dsimp only
  cases (r.of n.runId).perform stamp.now n with
  | raised => rfl
  | dropped => rfl
  | goesOn record => rfl

namespace FacadeMemory
variable {m : FacadeMemory} {r : Registry}

/-- A record is entered as a whole, but for how far the log was read. -/
theorem of_enter (m : FacadeMemory) (runId runId' : String) (record : RunRecord)
    (hoffset : record.rebuildOffset = (m.of runId).rebuildOffset) :
    (m.enter runId record).of runId' = if runId' = runId then record else m.of runId' := by
  unfold of
  simp only [enter, getD_fill_dict, getD_fill_list, approvals_of_entered]
  split
  · rename_i hrun
    subst hrun
    show ({ record with rebuildOffset := (m.of runId').rebuildOffset } : RunRecord) = record
    rw [← hoffset]
  · rfl

theorem of_purge (m : FacadeMemory) (runId runId' : String) :
    (m.purgeRunState runId).of runId' = if runId' = runId then {} else m.of runId' := by
  have happrovals := approvals_of_entered m.submittedApprovals [] runId runId'
  rw [List.map_nil, List.append_nil] at happrovals
  unfold of
  simp only [purgeRunState, Dict.get?_erase, happrovals]
  split
  · rfl
  · rfl

/-- What the replay of a run leaves is entered, and how far it read. -/
theorem of_rebuild (m : FacadeMemory) (runId runId' : String) (events : List RuntimeEvent) :
    (m.rebuildTraceState runId (.events events)).of runId' =
      if runId' = runId then (m.of runId).rebuild events else m.of runId' := by
  have hentered := m.of_enter runId runId'
    { (m.of runId).rebuild events with rebuildOffset := (m.of runId).rebuildOffset } rfl
  have hother : (m.rebuildTraceState runId (.events events)).of runId' =
      { (m.enter runId ((m.of runId).rebuild events)).of runId' with
        rebuildOffset := ((m.rebuildOffsets.set runId
          ((m.of runId).rebuild events).rebuildOffset).get? runId').getD 0 } := rfl
  have hsame : m.enter runId ((m.of runId).rebuild events) = m.enter runId
    { (m.of runId).rebuild events with rebuildOffset := (m.of runId).rebuildOffset } := rfl
  rw [hother, hsame, hentered, Dict.get?_set]
  split
  · rfl
  · rfl

theorem rebuildOffset_perform {record record' : RunRecord} {n : Notification} {now : String}
    (h : record.perform now n = .goesOn record') : record'.rebuildOffset = record.rebuildOffset := by
  cases n with
  | markStageState runId stageId newState failureCode =>
    simp only [RunRecord.perform] at h
    split at h
    · cases h
    · cases h
      rfl
  | markBranchState request =>
    simp only [RunRecord.perform] at h
    split at h
    · cases h
    · cases h
      rfl
  | submitApproval request =>
    simp only [RunRecord.perform] at h
    split at h
    · cases h
    · cases h
      rfl
  | openStage | openBranch | openHumanGate | resolveEscalation | spawnChildRun | escalateRecovery
  | heartbeatTimeout =>
    cases h
    rfl

/-! ### One facade -/

/-- The registries, one by one, track the same runs as the grouped ones and hold the same of
every run. -/
structure Groups (m : FacadeMemory) (r : Registry) : Prop where
  bound : m.maxTrackedRuns = r.maxTrackedRuns
  order : m.trackedRunOrder = r.trackedRunOrder
  held : ∀ runId, m.of runId = r.of runId

theorem Groups.purge (h : Groups m r) (runId : String) :
    Groups (m.purgeRunState runId) (r.purgeRunState runId) where
  bound := h.bound
  order := h.order
  held := by
    intro runId'
    rw [of_purge, Registry.of_purgeRunState, h.held]

theorem Groups.evict (h : Groups m r) (order : List String) :
    Groups (m.evictOldestRuns order) (r.evictOldestRuns order) := by
  induction order generalizing m r with
  | nil => exact ⟨h.bound, rfl, h.held⟩
  | cons oldest rest ih =>
    by_cases hmany : (oldest :: rest).length > m.maxTrackedRuns
    · have hmany' : (oldest :: rest).length > r.maxTrackedRuns := h.bound ▸ hmany
      simp only [evictOldestRuns, Registry.evictOldestRuns, if_pos hmany, if_pos hmany']
      exact ih (h.purge oldest)
    · have hmany' : ¬ (oldest :: rest).length > r.maxTrackedRuns := h.bound ▸ hmany
      simp only [evictOldestRuns, Registry.evictOldestRuns, if_neg hmany, if_neg hmany']
      exact ⟨h.bound, rfl, h.held⟩

theorem Groups.touch (h : Groups m r) (runId : String) :
    Groups (m.touchRun runId) (r.touchRun runId) := by
  unfold touchRun Registry.touchRun
  rw [h.order]
  split
  · exact h
  · exact h.evict _

theorem Groups.enter (h : Groups m r) {runId : String} {record : RunRecord}
    (hoffset : record.rebuildOffset = (m.of runId).rebuildOffset) :
    Groups (m.enter runId record) (r.update runId record) where
  bound := h.bound
  order := h.order
  held := by
    intro runId'
    rw [of_enter m runId runId' record hoffset, Registry.of_update, h.held]

/-- A query of the trace reads the same into both. -/
theorem Groups.rebuild (h : Groups m r) (runId : String) (events : List RuntimeEvent) :
    Groups (m.rebuildTraceState runId (.events events))
      (r.update runId ((r.of runId).rebuild events)) where
  bound := (m.rebuildTraceState_order runId (.events events)).2.trans h.bound
  order := (m.rebuildTraceState_order runId (.events events)).1.trans h.order
  held := by
    intro runId'
    rw [of_rebuild, Registry.of_update, h.held, h.held]

/-- An operation does the same to both. -/
theorem Groups.operate (h : Groups m r) (n : Notification) (now : String) :
    Groups (m.operate n now) (r.operate n now) := by
  by_cases htouches : n.touches = true
  · have htouched := h.touch n.runId
    have hr : r.operate n now = match ((r.touchRun n.runId).of n.runId).perform now n with
      | .raised | .dropped => r.touchRun n.runId
      | .goesOn record => (r.touchRun n.runId).update n.runId record := by
      unfold Registry.operate
      rw [if_pos htouches]
    rw [operate_touching htouches, hr, ← htouched.held]
    cases hperform : ((m.touchRun n.runId).of n.runId).perform now n with
    | raised => exact htouched
    | dropped => exact htouched
    | goesOn record => exact htouched.enter (rebuildOffset_perform hperform)
  · -- Such an operation finds the record as it was.
    have hm : m.operate n now = m := if_neg htouches
    have hperform : (r.of n.runId).perform now n = .goesOn (r.of n.runId) := by
      cases n with
      | spawnChildRun | escalateRecovery | heartbeatTimeout => rfl
      | openStage | markStageState | openBranch | markBranchState | openHumanGate | submitApproval
      | resolveEscalation => exact absurd rfl htouches
    have hr : r.operate n now = r.update n.runId (r.of n.runId) := by
      simp only [Registry.operate, if_neg htouches, hperform]
    rw [hm, hr]
    refine ⟨h.bound, h.order, fun runId => ?_⟩
    rw [Registry.of_update, h.held]
    split
    · rename_i hrun
      rw [hrun]
    · rfl

end FacadeMemory

/-! ### Facades over one log -/

/-- A world of facades, with every registry of each of them kept apart as well. -/
structure SpreadWorld where
  world : TraceWorld
  memories : Nat → FacadeMemory

namespace SpreadWorld
open FacadeMemory

def opened (bounds : Nat → Nat) : SpreadWorld where
  world := TraceWorld.opened bounds
  memories := fun i => FacadeMemory.opened (bounds i)

/-- What a label is to the facade it is about. -/
def memoryCall (s : SpreadWorld) : TraceLabel → Option (Nat × MemoryCall)
  | .operate i n stamp => some (i, .operate n stamp.now)
  | .query i runId => some (i, .queryTraceRuntime runId
      (.events (s.world.journal.load runId ((s.memories i).of runId).rebuildOffset)))
  | .append .. => none

def next (s : SpreadWorld) (label : TraceLabel) : SpreadWorld where
  world := s.world.next label
  memories := match s.memoryCall label with
    | some (i, call) => Function.update s.memories i ((s.memories i).next call)
    | none => s.memories

theorem run_world (s : SpreadWorld) (labels : List TraceLabel) :
    (run next s labels).world = run TraceWorld.next s.world labels := by
  induction labels generalizing s with
  | nil => rfl
  | cons label rest ih => exact ih (s.next label)

/-- One facade makes a call, in both readings. -/
theorem groups_update {memories : Nat → FacadeMemory} {facades : Nat → Registry}
    (h : ∀ i, Groups (memories i) (facades i)) {i : Nat} {m : FacadeMemory} {r : Registry}
    (hi : Groups m r) (j : Nat) :
    Groups (Function.update memories i m j) (Function.update facades i r j) := by
  by_cases hj : j = i
  · rw [hj, Function.update_self, Function.update_self]
    exact hi
  · rw [Function.update_of_ne hj, Function.update_of_ne hj]
    exact h j

/-- **One step** keeps the two readings together. -/
theorem groups_next {s : SpreadWorld} (h : ∀ i, Groups (s.memories i) (s.world.facades i))
    (label : TraceLabel) (i : Nat) :
    Groups ((s.next label).memories i) ((s.next label).world.facades i) := by
  cases label with
  | append commit untraced => exact h i
  | query j runId =>
    show Groups (Function.update s.memories j _ i) (Function.update s.world.facades j _ i)
    refine groups_update h ?_ i
    have hread := (h j).rebuild runId
      (s.world.journal.load runId ((s.memories j).of runId).rebuildOffset)
    have hqueried : s.world.queried j runId = ((s.world.facades j).of runId).rebuild
        (s.world.journal.load runId ((s.memories j).of runId).rebuildOffset) := by
      rw [(h j).held runId]
      rfl
    rw [hqueried]
    exact hread
  | operate j n stamp =>
    show Groups (Function.update s.memories j ((s.memories j).operate n stamp.now) i)
      ((s.world.operate j n stamp).facades i)
    rw [TraceWorld.facades_operate]
    exact groups_update h ((h j).operate n stamp.now) i

/-- **The facades that share a log may be read either way.** -/
theorem memories_group (bounds : Nat → Nat) (labels : List TraceLabel) (i : Nat) :
    Groups ((run next (opened bounds) labels).memories i)
      ((run TraceWorld.next (TraceWorld.opened bounds) labels).facades i) := by
  have hopened : ∀ i, Groups ((opened bounds).memories i) ((opened bounds).world.facades i) :=
    fun i => ⟨rfl, rfl, fun _ => rfl⟩
  have hall : ∀ i, Groups ((run next (opened bounds) labels).memories i)
      ((run next (opened bounds) labels).world.facades i) :=
    run_invariant (I := fun (s : SpreadWorld) => ∀ i, Groups (s.memories i) (s.world.facades i))
      (fun s label h i => groups_next h label i) hopened labels
  have hworld := run_world (opened bounds) labels
  rw [← show (opened bounds).world = TraceWorld.opened bounds from rfl, ← hworld]
  exact hall i

end SpreadWorld
end AgentKernel.Facade
