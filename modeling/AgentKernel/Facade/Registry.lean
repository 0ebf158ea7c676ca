import AgentKernel.Lib.Dict
import AgentKernel.Lib.Run
import AgentKernel.Facade.Notifications

/-! What a facade keeps of its runs in memory.

The registries of branches, stages, gates and approvals are all keyed by the run, and a
purge takes a run out of every one of them, so what they hold of one run is one record,
and a run they hold nothing of has the empty one (`Registry.of`). A facade tracks the runs
it was asked about in order; touching one more run than it may track purges the oldest
(`touchRun_tracked`, `of_touchRun`). -/
namespace AgentKernel.Facade
open Lib

/-! ### One run -/

structure TraceStageView where
  stageId : String
  state : TraceStageState
  enteredAt : String
  exitedAt : Option String := none
  branchId : Option String := none
  failureCode : Option String := none
  deriving DecidableEq, Repr

structure TraceBranchView where
  branchId : String
  stageId : String
  state : TraceBranchState
  openedAt : String
  parentBranchId : Option String := none
  proposedBy : Option String := none
  failureCode : Option String := none
  deriving DecidableEq, Repr

inductive Resolution where
  | approved
  | rejected
  deriving DecidableEq, Repr

/-- Add to a set. -/
def insertText (s : String) (texts : List String) : List String :=
  if s ∈ texts then texts else texts ++ [s]

theorem mem_insertText {s t : String} {texts : List String} :
    t ∈ insertText s texts ↔ t = s ∨ t ∈ texts := by
  unfold insertText
  split
  · rename_i hmem
    constructor
    · exact .inr
    · intro h
      rcases h with rfl | h
      · exact hmem
      · exact h
  · rw [List.mem_append, List.mem_singleton]
    exact Or.comm

/-- What the registries hold of a run. -/
structure RunRecord where
  branches : Dict String TraceBranchView := Dict.empty
  stages : Dict String TraceStageView := Dict.empty
  submittedApprovals : List String := []
  openHumanGates : List String := []
  resolvedHumanGates : List String := []
  gateTypes : Dict String HumanGateType := Dict.empty
  gateResolutions : Dict String Resolution := Dict.empty
  rebuildOffset : Int := 0

/-! ### The registries -/

/-- The registries of one facade, and the runs it tracks. A bound below zero is left out:
with one the first touch does not return. -/
structure Registry where
  maxTrackedRuns : Nat := 10000
  runs : Dict String RunRecord := Dict.empty
  trackedRunOrder : List String := []

namespace Registry

/-- What is held of a run. -/
def of (r : Registry) (runId : String) : RunRecord := (r.runs.get? runId).getD {}

def update (r : Registry) (runId : String) (record : RunRecord) : Registry :=
  { r with runs := r.runs.set runId record }

/-- `_purge_run_state`. -/
def purgeRunState (r : Registry) (runId : String) : Registry :=
  { r with runs := r.runs.erase runId }

/-- Purge the oldest runs until as many are tracked as may be. -/
def evictOldestRuns (r : Registry) : List String → Registry
  | [] => { r with trackedRunOrder := [] }
  | oldest :: rest =>
    if (oldest :: rest).length > r.maxTrackedRuns then (r.purgeRunState oldest).evictOldestRuns rest
    else { r with trackedRunOrder := oldest :: rest }

/-- `_touch_run`. -/
def touchRun (r : Registry) (runId : String) : Registry :=
  if runId ∈ r.trackedRunOrder then r else r.evictOldestRuns (r.trackedRunOrder ++ [runId])

theorem of_update (r : Registry) (runId runId' : String) (record : RunRecord) :
    (r.update runId record).of runId' = if runId' = runId then record else r.of runId' := by
  unfold of update
  rw [Dict.get?_set]
  split <;> rfl

@[simp] theorem of_update_self (r : Registry) (runId : String) (record : RunRecord) :
    (r.update runId record).of runId = record := by
  rw [of_update, if_pos rfl]

@[simp] theorem trackedRunOrder_update (r : Registry) (runId : String) (record : RunRecord) :
    (r.update runId record).trackedRunOrder = r.trackedRunOrder := rfl

@[simp] theorem maxTrackedRuns_update (r : Registry) (runId : String) (record : RunRecord) :
    (r.update runId record).maxTrackedRuns = r.maxTrackedRuns := rfl

theorem of_purgeRunState (r : Registry) (runId runId' : String) :
    (r.purgeRunState runId).of runId' = if runId' = runId then {} else r.of runId' := by
  unfold of purgeRunState
  rw [Dict.get?_erase]
  split <;> rfl

/-- An eviction purges the oldest runs and tracks the others. -/
theorem evictOldestRuns_split (r : Registry) (order : List String) :
    ∃ gone kept, order = gone ++ kept ∧ (r.evictOldestRuns order).trackedRunOrder = kept ∧
      ∀ runId, (r.evictOldestRuns order).of runId = if runId ∈ gone then {} else r.of runId := by
  induction order generalizing r with
  | nil => exact ⟨[], [], rfl, rfl, fun _ => rfl⟩
  | cons oldest rest ih =>
    unfold evictOldestRuns
    split
    · obtain ⟨gone, kept, horder, hkept, hof⟩ := ih (r.purgeRunState oldest)
      refine ⟨oldest :: gone, kept, by rw [horder, List.cons_append], hkept, fun runId => ?_⟩
      rw [hof, of_purgeRunState]
      by_cases hgone : runId ∈ gone <;> by_cases holdest : runId = oldest <;> simp [hgone, holdest]
    · exact ⟨[], oldest :: rest, rfl, rfl, fun _ => rfl⟩

/-- An eviction leaves a run as it was, or purges it. -/
theorem of_evictOldestRuns (r : Registry) (order : List String) (runId : String) :
    (r.evictOldestRuns order).of runId = r.of runId ∨ (r.evictOldestRuns order).of runId = {} := by
  obtain ⟨gone, kept, -, -, hof⟩ := r.evictOldestRuns_split order
  rw [hof]
  split
  · exact .inr rfl
  · exact .inl rfl

/-- **Touching a run leaves every run as it was, or purges it.** -/
theorem of_touchRun (r : Registry) (touched runId : String) :
    (r.touchRun touched).of runId = r.of runId ∨ (r.touchRun touched).of runId = {} := by
  unfold touchRun
  split
  · exact .inl rfl
  · exact of_evictOldestRuns r _ runId

theorem maxTrackedRuns_evictOldestRuns (r : Registry) (order : List String) :
    (r.evictOldestRuns order).maxTrackedRuns = r.maxTrackedRuns := by
  induction order generalizing r with
  | nil => rfl
  | cons oldest rest ih =>
    unfold evictOldestRuns
    split
    · exact ih (r.purgeRunState oldest)
    · rfl

@[simp] theorem maxTrackedRuns_touchRun (r : Registry) (runId : String) :
    (r.touchRun runId).maxTrackedRuns = r.maxTrackedRuns := by
  unfold touchRun
  split
  · rfl
  · exact maxTrackedRuns_evictOldestRuns r _

/-- Touching a run takes another one out of the registries, or itself. -/
def Evicts (r : Registry) (touched runId : String) : Prop :=
  runId ∈ r.trackedRunOrder ++ [touched] ∧ runId ∉ (r.touchRun touched).trackedRunOrder

instance (r : Registry) (touched runId : String) : Decidable (r.Evicts touched runId) :=
  inferInstanceAs (Decidable (_ ∧ _))

/-- No run is tracked twice. -/
theorem nodup_touchRun {r : Registry} (h : r.trackedRunOrder.Nodup) (touched : String) :
    (r.touchRun touched).trackedRunOrder.Nodup := by
  unfold touchRun
  split
  · exact h
  · rename_i hnew
    have hnodup : (r.trackedRunOrder ++ [touched]).Nodup :=
      List.nodup_append_comm.mp (List.nodup_cons.mpr ⟨hnew, h⟩)
    obtain ⟨gone, kept, horder, hkept, -⟩ := r.evictOldestRuns_split (r.trackedRunOrder ++ [touched])
    rw [hkept]
    exact (List.nodup_append.mp (horder ▸ hnodup)).2.1

/-- **A touch purges what it evicts, and nothing else.** -/
theorem of_touchRun_eq {r : Registry} (h : r.trackedRunOrder.Nodup) (touched runId : String) :
    (r.touchRun touched).of runId = if r.Evicts touched runId then {} else r.of runId := by
  unfold Evicts touchRun
  by_cases htracked : touched ∈ r.trackedRunOrder
  · simp only [if_pos htracked]
    rw [if_neg]
    rintro ⟨hmem, hgone⟩
    rcases List.mem_append.mp hmem with hmem | hmem
    · exact hgone hmem
    · exact hgone (List.mem_singleton.mp hmem ▸ htracked)
  · simp only [if_neg htracked]
    have hnodup : (r.trackedRunOrder ++ [touched]).Nodup :=
      List.nodup_append_comm.mp (List.nodup_cons.mpr ⟨htracked, h⟩)
    obtain ⟨gone, kept, horder, hkept, hof⟩ := r.evictOldestRuns_split (r.trackedRunOrder ++ [touched])
    rw [hof, hkept, horder]
    rw [horder] at hnodup
    have hapart : runId ∈ gone → runId ∉ kept := fun hgone hmem =>
      (List.nodup_append.mp hnodup).2.2 runId hgone runId hmem rfl
    refine if_congr ⟨fun hgone => ⟨List.mem_append_left _ hgone, hapart hgone⟩, fun hevicted => ?_⟩ rfl rfl
    exact (List.mem_append.mp hevicted.1).resolve_right hevicted.2

/-- The newest run is still tracked, if any may be. -/
theorem mem_evictOldestRuns (r : Registry) (order : List String) (runId : String)
    (hmax : 0 < r.maxTrackedRuns) : runId ∈ (r.evictOldestRuns (order ++ [runId])).trackedRunOrder := by
  induction order generalizing r with
  | nil =>
    have hfits : ¬ [runId].length > r.maxTrackedRuns := by
      simp only [List.length_singleton]
      omega
    simp only [List.nil_append, evictOldestRuns, if_neg hfits, List.mem_singleton]
  | cons oldest rest ih =>
    simp only [List.cons_append, evictOldestRuns]
    split
    · exact ih (r.purgeRunState oldest) hmax
    · simp

/-- **A touched run is tracked, if any run may be.** -/
theorem touchRun_tracked (r : Registry) (runId : String) (hmax : 0 < r.maxTrackedRuns) :
    runId ∈ (r.touchRun runId).trackedRunOrder := by
  unfold touchRun
  split
  · rename_i htracked
    exact htracked
  · exact mem_evictOldestRuns r _ runId hmax

/-- A run that is tracked is touched without effect. -/
theorem touchRun_of_mem {r : Registry} {runId : String} (h : runId ∈ r.trackedRunOrder) :
    r.touchRun runId = r := if_pos h

/-- With no run to track, the touched run is purged. -/
theorem of_evictOldestRuns_zero (r : Registry) (order : List String) (hmax : r.maxTrackedRuns = 0) :
    ∀ runId ∈ order, (r.evictOldestRuns order).of runId = {} := by
  induction order generalizing r with
  | nil =>
    intro runId h
    exact absurd h List.not_mem_nil
  | cons oldest rest ih =>
    intro runId h
    have hfull : (oldest :: rest).length > r.maxTrackedRuns := by
      rw [hmax, List.length_cons]
      omega
    simp only [evictOldestRuns, if_pos hfull]
    rcases List.mem_cons.mp h with rfl | h
    · rcases of_evictOldestRuns (r.purgeRunState runId) rest runId with hsame | hpurged
      · rw [hsame, of_purgeRunState, if_pos rfl]
      · exact hpurged
    · exact ih (r.purgeRunState oldest) hmax runId h

end Registry
end AgentKernel.Facade
