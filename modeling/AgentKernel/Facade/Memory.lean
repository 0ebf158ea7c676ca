import Mathlib.Data.List.Dedup
import AgentKernel.Facade.TraceEvents

/-! The registries of a facade, one by one.

A facade keeps a dozen dictionaries under the identifiers of runs. The trace registries are
filled by the operations on a trace and by the queries that read the log, and a purge takes
a run out of all of them; the lifetime registries (when a run was created and completed,
what kind of child it is, which children it spawned) are filled by starts, spawns and
queries, and nothing takes a run out of them. Only the operations on a trace track a run.
So the memory is bounded by the number of tracked runs exactly as long as starts, spawns
and queries concern runs that are tracked already, and no run is evicted or cleaned up that
was ever started, spawned or completed (`memory_bounded_iff`). -/
namespace AgentKernel.Facade
open Lib

/-! ### The registries -/

/-- The registries of one facade. `_tracked_run_set` has the members of
`_tracked_run_order`. -/
structure FacadeMemory where
  maxTrackedRuns : Nat := 10000
  trackedRunOrder : List String := []
  branchRegistry : Dict String (Dict String TraceBranchView) := Dict.empty
  stageRegistry : Dict String (Dict String TraceStageView) := Dict.empty
  submittedApprovals : List (String × String) := []
  openHumanGates : Dict String (List String) := Dict.empty
  resolvedHumanGates : Dict String (List String) := Dict.empty
  gateTypes : Dict String (Dict String HumanGateType) := Dict.empty
  gateResolutions : Dict String (Dict String Resolution) := Dict.empty
  rebuildOffsets : Dict String Int := Dict.empty
  runCreatedAt : Dict String String := Dict.empty
  runCompletedAt : Dict String String := Dict.empty
  childKind : Dict String String := Dict.empty
  allChildRuns : Dict String (List String) := Dict.empty

/-- A run that has nothing in a registry has no entry there. -/
def fill {ν : Type} (filled : Bool) (d : Dict String ν) (runId : String) (v : ν) : Dict String ν :=
  if filled then d.set runId v else d.erase runId

namespace FacadeMemory

/-- The run identifiers in the registries that a purge clears. -/
def traceRegistries (m : FacadeMemory) : List (List String) :=
  [m.branchRegistry.keys, m.stageRegistry.keys, m.submittedApprovals.map Prod.fst,
   m.openHumanGates.keys, m.resolvedHumanGates.keys, m.gateTypes.keys, m.gateResolutions.keys,
   m.rebuildOffsets.keys]

/-- The run identifiers in the other registries. -/
def lifetimeRegistries (m : FacadeMemory) : List (List String) :=
  [m.runCreatedAt.keys, m.runCompletedAt.keys, m.childKind.keys, m.allChildRuns.keys]

def registries (m : FacadeMemory) : List (List String) := m.traceRegistries ++ m.lifetimeRegistries

/-- What the trace registries hold of a run. -/
def of (m : FacadeMemory) (runId : String) : RunRecord :=
  { branches := (m.branchRegistry.get? runId).getD Dict.empty
    stages := (m.stageRegistry.get? runId).getD Dict.empty
    submittedApprovals := (m.submittedApprovals.filter (fun k => k.1 = runId)).map Prod.snd
    openHumanGates := (m.openHumanGates.get? runId).getD []
    resolvedHumanGates := (m.resolvedHumanGates.get? runId).getD []
    gateTypes := (m.gateTypes.get? runId).getD Dict.empty
    gateResolutions := (m.gateResolutions.get? runId).getD Dict.empty
    rebuildOffset := (m.rebuildOffsets.get? runId).getD 0 }

/-- The entries of a run become those of the record; how far the log was read is kept
apart. -/
def enter (m : FacadeMemory) (runId : String) (record : RunRecord) : FacadeMemory :=
  { m with
    branchRegistry := fill (record.branches.size ≠ 0) m.branchRegistry runId record.branches
    stageRegistry := fill (record.stages.size ≠ 0) m.stageRegistry runId record.stages
    submittedApprovals := m.submittedApprovals.filter (fun k => k.1 ≠ runId) ++
      record.submittedApprovals.map (fun ref => (runId, ref))
    openHumanGates := fill (record.openHumanGates ≠ []) m.openHumanGates runId record.openHumanGates
    resolvedHumanGates :=
      fill (record.resolvedHumanGates ≠ []) m.resolvedHumanGates runId record.resolvedHumanGates
    gateTypes := fill (record.gateTypes.size ≠ 0) m.gateTypes runId record.gateTypes
    gateResolutions :=
      fill (record.gateResolutions.size ≠ 0) m.gateResolutions runId record.gateResolutions }

/-! ### Tracking -/

/-- `_purge_run_state`. -/
def purgeRunState (m : FacadeMemory) (runId : String) : FacadeMemory :=
  { m with
    branchRegistry := m.branchRegistry.erase runId
    stageRegistry := m.stageRegistry.erase runId
    submittedApprovals := m.submittedApprovals.filter (fun k => k.1 ≠ runId)
    openHumanGates := m.openHumanGates.erase runId
    resolvedHumanGates := m.resolvedHumanGates.erase runId
    gateTypes := m.gateTypes.erase runId
    gateResolutions := m.gateResolutions.erase runId
    rebuildOffsets := m.rebuildOffsets.erase runId }

/-- `_evict_oldest_run`, as often as too many runs are tracked. -/
def evictOldestRuns (m : FacadeMemory) : List String → FacadeMemory
  | [] => { m with trackedRunOrder := [] }
  | oldest :: rest =>
    if (oldest :: rest).length > m.maxTrackedRuns then (m.purgeRunState oldest).evictOldestRuns rest
    else { m with trackedRunOrder := oldest :: rest }

/-- `_touch_run`. -/
def touchRun (m : FacadeMemory) (runId : String) : FacadeMemory :=
  if runId ∈ m.trackedRunOrder then m else m.evictOldestRuns (m.trackedRunOrder ++ [runId])

/-- `cleanup_completed_run`. -/
def cleanupCompletedRun (m : FacadeMemory) (runId : String) : FacadeMemory :=
  { m with trackedRunOrder := m.trackedRunOrder.erase runId }.purgeRunState runId

end FacadeMemory

/-! ### Operations -/

/-- What the event log returns to a query: nothing without a log, an error, or events. -/
inductive LogRead where
  | absent
  | failed
  | events (events : List RuntimeEvent)

def terminalStates : List RunLifecycleState := [.completed, .failed, .aborted]

/-- A call of the facade, with the identifiers, states and errors the gateway answers with
and the time it reads. A start or a spawn that the gateway refuses changes nothing and is
left out. -/
inductive MemoryCall where
  | startRun (runId now : String)
  | spawnChildRun (parentRunId childRunId childKind now : String)
  | operate (n : Notification) (now : String)
  | queryTraceRuntime (runId : String) (read : LogRead)
  | queryRunPostmortem (runId : String) (response : Except PyError Unit) (read : LogRead)
      (lifecycleState : Except PyError RunLifecycleState) (now : String)
  | queryChildRuns (parentRunId : String) (activeChildRuns : Except PyError (List String))
      (lifecycleState : String → Except PyError RunLifecycleState) (now : String)
  | cleanupCompletedRun (runId : String)

namespace FacadeMemory

def startRun (m : FacadeMemory) (runId now : String) : FacadeMemory :=
  { m with runCreatedAt := m.runCreatedAt.set runId now }

def spawnChildRun (m : FacadeMemory) (parentRunId childRunId childKind now : String) : FacadeMemory :=
  { m with
    runCreatedAt := m.runCreatedAt.set childRunId now
    childKind := m.childKind.set childRunId childKind
    allChildRuns := m.allChildRuns.set parentRunId
      (insertText childRunId ((m.allChildRuns.get? parentRunId).getD [])) }

/-- An operation on a trace, which may raise or drop a duplicate once its run is tracked.
What tracks no run here is a signal and no more. -/
def operate (m : FacadeMemory) (n : Notification) (now : String) : FacadeMemory :=
  if n.touches then
    let m := m.touchRun n.runId
    match (m.of n.runId).perform now n with
    | .raised | .dropped => m
    | .goesOn record => m.enter n.runId record
  else m

/-- `_rebuild_trace_state_from_events`, if it gets so far. -/
def rebuildTraceState (m : FacadeMemory) (runId : String) : LogRead → FacadeMemory
  | .absent | .failed => m
  | .events events =>
    let record := (m.of runId).rebuild events
    { m.enter runId record with
      rebuildOffsets := m.rebuildOffsets.set runId record.rebuildOffset }

/-- The first time a run is seen to have ended. -/
def noteCompleted (m : FacadeMemory) (runId now : String) : FacadeMemory :=
  match m.runCompletedAt.get? runId with
  | some _ => m
  | none => { m with runCompletedAt := m.runCompletedAt.set runId now }

/-- What is noted once the state of a run is known. -/
def noteState (m : FacadeMemory) (runId now : String) : Except PyError RunLifecycleState → FacadeMemory
  | .ok state => if state ∈ terminalStates then m.noteCompleted runId now else m
  | .error _ => m

/-- The log is read between the two queries of the run; a call that fails before its end
notes nothing. -/
def queryRunPostmortem (m : FacadeMemory) (runId now : String) (response : Except PyError Unit)
    (read : LogRead) (lifecycleState : Except PyError RunLifecycleState) : FacadeMemory :=
  match response, read with
  | .error _, _ => m
  | .ok _, .failed => m
  | .ok _, read => (m.rebuildTraceState runId read).noteState runId now lifecycleState

/-- The children that are shown. -/
def childRunIds (m : FacadeMemory) (parentRunId : String) (activeChildRuns : List String) : List String :=
  activeChildRuns ++ ((m.allChildRuns.get? parentRunId).getD []).filter (fun c => c ∉ activeChildRuns)

def queryChildRuns (m : FacadeMemory) (parentRunId now : String) (lifecycleState : String →
    Except PyError RunLifecycleState) : Except PyError (List String) → FacadeMemory
  | .ok active => (m.childRunIds parentRunId active).foldl
      (fun m child => m.noteState child now (lifecycleState child)) m
  | .error _ => m

def next (m : FacadeMemory) : MemoryCall → FacadeMemory
  | .startRun runId now => m.startRun runId now
  | .spawnChildRun parent child kind now => m.spawnChildRun parent child kind now
  | .operate n now => m.operate n now
  | .queryTraceRuntime runId read => m.rebuildTraceState runId read
  | .queryRunPostmortem runId response read state now =>
    m.queryRunPostmortem runId now response read state
  | .queryChildRuns parent active state now => m.queryChildRuns parent now state active
  | .cleanupCompletedRun runId => m.cleanupCompletedRun runId

/-! ### What is asked of the memory -/

/-- Some registry holds an entry of the run. -/
def Holds (m : FacadeMemory) (runId : String) : Prop := ∃ keys ∈ m.registries, runId ∈ keys

/-- No registry has more runs than may be tracked, or one that is not. -/
structure WithinBound (m : FacadeMemory) : Prop where
  few : ∀ keys ∈ m.registries, keys.dedup.length ≤ m.maxTrackedRuns
  tracked : ∀ keys ∈ m.registries, ∀ runId ∈ keys, runId ∈ m.trackedRunOrder

/-- The runs a call cleans up or evicts. -/
def dropped (m : FacadeMemory) : MemoryCall → List String
  | .cleanupCompletedRun runId => [runId]
  | .operate n _ =>
    if n.touches then (m.trackedRunOrder ++ [n.runId]).filter (fun runId =>
      runId ∉ (m.touchRun n.runId).trackedRunOrder)
    else []
  | _ => []

/-- Every state that is reached is within the bound, and holds nothing of the runs that the
last call dropped. -/
structure Bounded (m : FacadeMemory) (calls : List MemoryCall) : Prop where
  within : ∀ pre, pre <+: calls → (run next m pre).WithinBound
  cleared : ∀ pre call, pre ++ [call] <+: calls → ∀ runId ∈ (run next m pre).dropped call,
    ¬ (run next m (pre ++ [call])).Holds runId

/-- A lifetime registry holds an entry of the run. -/
def HoldsLifetime (m : FacadeMemory) (runId : String) : Prop :=
  ∃ keys ∈ m.lifetimeRegistries, runId ∈ keys

end FacadeMemory

/-- The operations that make an entry for a run that has none. -/
def Notification.Opens : Notification → Prop
  | .openStage .. | .openBranch _ | .openHumanGate _ | .submitApproval _ => True
  | _ => False

namespace FacadeMemory

/-- The runs that are in the way when the operation tracks its run: the oldest ones, as many
as are too many. -/
def outgoing (m : FacadeMemory) (n : Notification) : List String :=
  if n.touches = true ∧ n.runId ∉ m.trackedRunOrder then
    (m.trackedRunOrder ++ [n.runId]).take (m.trackedRunOrder.length + 1 - m.maxTrackedRuns)
  else []

/-- The run has ended, as far as the gateway says. -/
def Ended (lifecycleState : Except PyError RunLifecycleState) : Prop :=
  ∃ state ∈ terminalStates, lifecycleState = .ok state

/-- Starts, spawns and queries make entries for tracked runs only, what is dropped was never
started, spawned or seen to end, and nothing is opened when no run may be tracked. -/
def Contained (m : FacadeMemory) : MemoryCall → Prop
  | .startRun runId _ => runId ∈ m.trackedRunOrder
  | .spawnChildRun parent child _ _ => parent ∈ m.trackedRunOrder ∧ child ∈ m.trackedRunOrder
  | .operate n _ => (∀ runId ∈ m.outgoing n, ¬ m.HoldsLifetime runId) ∧
      (n.Opens → 0 < m.maxTrackedRuns)
  | .queryTraceRuntime runId read => ∀ events, read = .events events → runId ∈ m.trackedRunOrder
  | .queryRunPostmortem runId response read state _ => (∃ u, response = .ok u) → read ≠ .failed →
      ((∃ events, read = .events events) ∨ Ended state) → runId ∈ m.trackedRunOrder
  | .queryChildRuns parent active state _ => ∀ ids, active = .ok ids →
      ∀ child ∈ m.childRunIds parent ids, Ended (state child) → child ∈ m.trackedRunOrder
  | .cleanupCompletedRun runId => ¬ m.HoldsLifetime runId

/-! ### What is held after a change -/

variable {m : FacadeMemory}

/-- A trace registry holds an entry of the run. -/
def HoldsTrace (m : FacadeMemory) (runId : String) : Prop := ∃ keys ∈ m.traceRegistries, runId ∈ keys

theorem holds_iff (m : FacadeMemory) (runId : String) :
    m.Holds runId ↔ m.HoldsTrace runId ∨ m.HoldsLifetime runId := by
  unfold Holds HoldsTrace HoldsLifetime registries
  simp only [List.mem_append, or_and_right, exists_or]

theorem mem_keys_erase {ν : Type} (d : Dict String ν) (runId runId' : String) :
    runId' ∈ (d.erase runId).keys ↔ runId' ≠ runId ∧ runId' ∈ d.keys := by
  rw [Dict.keys_erase, List.mem_filter, decide_eq_true_eq, and_comm]

theorem mem_keys_set {ν : Type} (d : Dict String ν) (runId runId' : String) (v : ν) :
    runId' ∈ (d.set runId v).keys ↔ runId' ∈ d.keys ∨ runId' = runId := by
  rw [Dict.keys_set]
  split
  · rename_i hmem
    constructor
    · exact .inl
    · intro h
      rcases h with h | rfl
      · exact h
      · exact hmem
  · rw [List.mem_append, List.mem_singleton]

theorem mem_keys_fill {ν : Type} (filled : Bool) (d : Dict String ν) (runId runId' : String) (v : ν) :
    runId' ∈ (fill filled d runId v).keys ↔
      if runId' = runId then filled = true else runId' ∈ d.keys := by
  cases filled with
  | true =>
    rw [show fill true d runId v = d.set runId v from rfl, mem_keys_set]
    by_cases h : runId' = runId
    · simp [h]
    · simp [h]
  | false =>
    rw [show fill false d runId v = d.erase runId from rfl, mem_keys_erase]
    by_cases h : runId' = runId
    · simp [h]
    · simp [h]

theorem mem_approvals_filter (approvals : List (String × String)) (runId runId' : String) :
    runId' ∈ (approvals.filter (fun k => k.1 ≠ runId)).map Prod.fst ↔
      runId' ≠ runId ∧ runId' ∈ approvals.map Prod.fst := by
  simp only [List.mem_map, List.mem_filter, decide_eq_true_eq]
  constructor
  · intro h
    obtain ⟨k, ⟨hk, hne⟩, rfl⟩ := h
    exact ⟨hne, k, hk, rfl⟩
  · intro h
    obtain ⟨hne, k, hk, rfl⟩ := h
    exact ⟨k, ⟨hk, hne⟩, rfl⟩

/-- **A purge clears the trace registries of one run.** -/
theorem holdsTrace_purge (m : FacadeMemory) (runId runId' : String) :
    (m.purgeRunState runId).HoldsTrace runId' ↔ runId' ≠ runId ∧ m.HoldsTrace runId' := by
  unfold HoldsTrace traceRegistries purgeRunState
  simp only [List.mem_cons, List.not_mem_nil, or_false, exists_eq_or_imp, exists_eq_left, mem_keys_erase,
    mem_approvals_filter, and_or_left]

/-- The record has something for a registry. -/
def Filled (record : RunRecord) : Prop :=
  record.branches.size ≠ 0 ∨ record.stages.size ≠ 0 ∨ record.submittedApprovals ≠ [] ∨
    record.openHumanGates ≠ [] ∨ record.resolvedHumanGates ≠ [] ∨ record.gateTypes.size ≠ 0 ∨
    record.gateResolutions.size ≠ 0

theorem holdsTrace_enter (m : FacadeMemory) (runId runId' : String) (record : RunRecord) :
    (m.enter runId record).HoldsTrace runId' ↔
      if runId' = runId then Filled record ∨ runId ∈ m.rebuildOffsets.keys else m.HoldsTrace runId' := by
  unfold HoldsTrace traceRegistries enter Filled
  simp only [List.mem_cons, List.not_mem_nil, or_false, exists_eq_or_imp, exists_eq_left, mem_keys_fill,
    List.map_append, List.mem_append, mem_approvals_filter, List.map_map]
  by_cases h : runId' = runId
  · subst h
    have hrefs : runId' ∈ record.submittedApprovals.map (Prod.fst ∘ fun ref => (runId', ref)) ↔
        record.submittedApprovals ≠ [] := by
      cases record.submittedApprovals with
      | nil => simp
      | cons ref rest => simp
    simp only [if_true, ne_eq, not_true_eq_false, false_and, false_or, hrefs, decide_eq_true_eq,
      or_assoc]
  · have hrefs : runId' ∉ record.submittedApprovals.map (Prod.fst ∘ fun ref => (runId, ref)) := by
      intro hmem
      obtain ⟨_, _, rfl⟩ := List.mem_map.mp hmem
      exact h rfl
    simp only [ne_eq, h, not_false_eq_true, true_and, hrefs, or_false, if_false]

/-! ### What is tracked -/

/-- No run is tracked twice, and no more runs than may be. -/
structure Tracking (m : FacadeMemory) : Prop where
  nodup : m.trackedRunOrder.Nodup
  few : m.trackedRunOrder.length ≤ m.maxTrackedRuns

theorem Tracking.nodup_new (h : m.Tracking) {runId : String} (hnew : runId ∉ m.trackedRunOrder) :
    (m.trackedRunOrder ++ [runId]).Nodup := by
  refine List.nodup_append.mpr ⟨h.nodup, List.nodup_singleton runId, fun x hx y hy => ?_⟩
  rw [List.mem_singleton.mp hy]
  exact fun he => hnew (he ▸ hx)

theorem maxTrackedRuns_evict (m : FacadeMemory) (order : List String) :
    (m.evictOldestRuns order).maxTrackedRuns = m.maxTrackedRuns := by
  induction order generalizing m with
  | nil => rfl
  | cons oldest rest ih =>
    unfold evictOldestRuns
    split
    · exact ih (m.purgeRunState oldest)
    · rfl

@[simp] theorem maxTrackedRuns_touch (m : FacadeMemory) (runId : String) :
    (m.touchRun runId).maxTrackedRuns = m.maxTrackedRuns := by
  unfold touchRun
  split
  · rfl
  · exact maxTrackedRuns_evict m _

/-- The oldest runs go, as many as are too many. -/
theorem order_evict (m : FacadeMemory) (order : List String) :
    (m.evictOldestRuns order).trackedRunOrder = order.drop (order.length - m.maxTrackedRuns) := by
  induction order generalizing m with
  | nil =>
    rw [List.drop_nil]
    rfl
  | cons oldest rest ih =>
    unfold evictOldestRuns
    split
    · rename_i hmany
      rw [List.length_cons] at hmany
      obtain ⟨k, hk⟩ : ∃ k, rest.length - m.maxTrackedRuns = k := ⟨_, rfl⟩
      have hk' : rest.length + 1 - m.maxTrackedRuns = k + 1 := by omega
      rw [ih (m.purgeRunState oldest), List.length_cons, hk', List.drop_succ_cons, ← hk]
      rfl
    · rename_i hfits
      rw [Nat.sub_eq_zero_of_le (Nat.le_of_not_lt hfits), List.drop_zero]

/-- The newest runs stay, as many as may be tracked. -/
theorem evict_suffix (m : FacadeMemory) (order : List String) :
    (m.evictOldestRuns order).trackedRunOrder <:+ order ∧
      (m.evictOldestRuns order).trackedRunOrder.length ≤ m.maxTrackedRuns := by
  rw [order_evict]
  refine ⟨List.drop_suffix _ order, ?_⟩
  rw [List.length_drop]
  omega

theorem tracking_touch (h : m.Tracking) (runId : String) : (m.touchRun runId).Tracking := by
  unfold touchRun
  split
  · exact h
  · rename_i hnew
    obtain ⟨hsuffix, hfew⟩ := m.evict_suffix (m.trackedRunOrder ++ [runId])
    refine ⟨?_, ?_⟩
    · exact (h.nodup_new hnew).sublist hsuffix.sublist
    · rw [maxTrackedRuns_evict]
      exact hfew

/-- **The newest run is tracked, if any may be.** -/
theorem mem_touch (m : FacadeMemory) (runId : String) (hmax : 0 < m.maxTrackedRuns) :
    runId ∈ (m.touchRun runId).trackedRunOrder := by
  unfold touchRun
  split
  · rename_i hmem
    exact hmem
  · have hstays : (m.trackedRunOrder ++ [runId]).length - m.maxTrackedRuns ≤
        m.trackedRunOrder.length := by
      rw [List.length_append, List.length_singleton]
      omega
    rw [order_evict, List.drop_append_of_le_length hstays]
    exact List.mem_append_right _ (List.mem_singleton_self runId)

/-- An eviction clears the trace registries of the runs it drops, and of no other. -/
theorem holdsTrace_evict (m : FacadeMemory) {order : List String} (h : order.Nodup) (runId : String) :
    (m.evictOldestRuns order).HoldsTrace runId ↔
      m.HoldsTrace runId ∧ (runId ∈ order → runId ∈ (m.evictOldestRuns order).trackedRunOrder) := by
  induction order generalizing m with
  | nil =>
    constructor
    · intro hholds
      exact ⟨hholds, fun hmem => absurd hmem List.not_mem_nil⟩
    · exact fun hholds => hholds.1
  | cons oldest rest ih =>
    obtain ⟨hnew, hrest⟩ := List.nodup_cons.mp h
    unfold evictOldestRuns
    split
    · rw [ih (m.purgeRunState oldest) hrest, holdsTrace_purge]
      -- The oldest run is not tracked again.
      have hgone : oldest ∉ ((m.purgeRunState oldest).evictOldestRuns rest).trackedRunOrder :=
        fun hmem => hnew ((evict_suffix _ rest).1.subset hmem)
      constructor
      · intro hholds
        obtain ⟨⟨hne, hheld⟩, hkept⟩ := hholds
        refine ⟨hheld, fun hmem => ?_⟩
        rcases List.mem_cons.mp hmem with he | hmem
        · exact absurd he hne
        · exact hkept hmem
      · intro hholds
        obtain ⟨hheld, hkept⟩ := hholds
        refine ⟨⟨fun he => ?_, hheld⟩, fun hmem => hkept (List.mem_cons_of_mem oldest hmem)⟩
        subst he
        exact hgone (hkept List.mem_cons_self)
    · constructor
      · intro hholds
        exact ⟨hholds, fun hmem => hmem⟩
      · exact fun hholds => hholds.1

theorem lifetimeRegistries_touch (m : FacadeMemory) (runId : String) :
    (m.touchRun runId).lifetimeRegistries = m.lifetimeRegistries := by
  have hevict : ∀ (m : FacadeMemory) (order : List String),
      (m.evictOldestRuns order).lifetimeRegistries = m.lifetimeRegistries := by
    intro m order
    induction order generalizing m with
    | nil => rfl
    | cons oldest rest ih =>
      unfold evictOldestRuns
      split
      · exact ih (m.purgeRunState oldest)
      · rfl
  unfold touchRun
  split
  · rfl
  · exact hevict m _

/-! ### One call -/

/-- With few runs tracked, the bound says that what is held is tracked. -/
theorem withinBound_iff (h : m.Tracking) :
    m.WithinBound ↔ ∀ runId, m.Holds runId → runId ∈ m.trackedRunOrder := by
  constructor
  · intro hbound runId hholds
    obtain ⟨keys, hkeys, hmem⟩ := hholds
    exact hbound.tracked keys hkeys runId hmem
  · intro htracked
    have hall : ∀ keys ∈ m.registries, ∀ runId ∈ keys, runId ∈ m.trackedRunOrder :=
      fun keys hkeys runId hmem => htracked runId ⟨keys, hkeys, hmem⟩
    refine ⟨fun keys hkeys => ?_, hall⟩
    have hsub : keys.dedup ⊆ m.trackedRunOrder :=
      fun runId hmem => hall keys hkeys runId (List.mem_dedup.mp hmem)
    exact Nat.le_trans (List.Nodup.length_le_of_subset (List.nodup_dedup keys) hsub) h.few

/-- A call that only adds entries keeps the bound when it adds them for tracked runs. -/
theorem withinBound_of_added {m' : FacadeMemory} {Added : String → Prop} (h : m.Tracking)
    (hbound : m.WithinBound) (horder : m'.trackedRunOrder = m.trackedRunOrder)
    (hmax : m'.maxTrackedRuns = m.maxTrackedRuns)
    (hholds : ∀ runId, m'.Holds runId ↔ m.Holds runId ∨ Added runId) :
    m'.WithinBound ↔ ∀ runId, Added runId → runId ∈ m.trackedRunOrder := by
  have htracking : m'.Tracking := ⟨horder ▸ h.nodup, by rw [horder, hmax]; exact h.few⟩
  rw [withinBound_iff htracking, horder]
  constructor
  · intro hall runId hadded
    exact hall runId ((hholds runId).mpr (.inr hadded))
  · intro hadded runId hheld
    rcases (hholds runId).mp hheld with hheld | hnew
    · exact (withinBound_iff h).mp hbound runId hheld
    · exact hadded runId hnew

theorem holdsLifetime_iff (m : FacadeMemory) (runId : String) :
    m.HoldsLifetime runId ↔ runId ∈ m.runCreatedAt.keys ∨ runId ∈ m.runCompletedAt.keys ∨
      runId ∈ m.childKind.keys ∨ runId ∈ m.allChildRuns.keys := by
  unfold HoldsLifetime lifetimeRegistries
  simp only [List.mem_cons, List.not_mem_nil, or_false, exists_eq_or_imp, exists_eq_left]

/-- A change of the lifetime registries. -/
theorem holds_of_lifetime {m' : FacadeMemory} {runId : String} {Added : Prop}
    (htrace : m'.traceRegistries = m.traceRegistries)
    (hlifetime : m'.HoldsLifetime runId ↔ m.HoldsLifetime runId ∨ Added) :
    m'.Holds runId ↔ m.Holds runId ∨ Added := by
  rw [holds_iff, holds_iff, hlifetime, or_assoc]
  unfold HoldsTrace
  rw [htrace]

theorem holds_startRun (m : FacadeMemory) (runId now runId' : String) :
    (m.startRun runId now).Holds runId' ↔ m.Holds runId' ∨ runId' = runId := by
  refine holds_of_lifetime rfl ?_
  rw [holdsLifetime_iff, holdsLifetime_iff]
  simp only [startRun, mem_keys_set]
  tauto

theorem holds_spawnChildRun (m : FacadeMemory) (parent child kind now runId : String) :
    (m.spawnChildRun parent child kind now).Holds runId ↔
      m.Holds runId ∨ (runId = child ∨ runId = parent) := by
  refine holds_of_lifetime rfl ?_
  rw [holdsLifetime_iff, holdsLifetime_iff]
  simp only [spawnChildRun, mem_keys_set]
  tauto

/-- Reading the log always notes how far. -/
theorem holds_rebuildTraceState (m : FacadeMemory) (runId : String) (events : List RuntimeEvent)
    (runId' : String) :
    (m.rebuildTraceState runId (.events events)).Holds runId' ↔ m.Holds runId' ∨ runId' = runId := by
  have hoffset : ∀ (m : FacadeMemory) (offset : Int),
      { m with rebuildOffsets := m.rebuildOffsets.set runId offset }.HoldsTrace runId' ↔
        m.HoldsTrace runId' ∨ runId' = runId := by
    intro m offset
    unfold HoldsTrace traceRegistries
    simp only [List.mem_cons, List.not_mem_nil, or_false, exists_eq_or_imp, exists_eq_left,
      mem_keys_set, or_assoc]
  have hlifetime : (m.rebuildTraceState runId (.events events)).HoldsLifetime runId' ↔
      m.HoldsLifetime runId' := Iff.rfl
  have htrace := hoffset (m.enter runId ((m.of runId).rebuild events))
    ((m.of runId).rebuild events).rebuildOffset
  rw [holdsTrace_enter] at htrace
  rw [holds_iff, holds_iff, hlifetime]
  show { m.enter runId _ with rebuildOffsets := _ }.HoldsTrace runId' ∨ _ ↔ _
  by_cases h : runId' = runId
  · have hheld := htrace.mpr (.inr h)
    exact ⟨fun _ => .inr h, fun _ => .inl hheld⟩
  · rw [if_neg h] at htrace
    constructor
    · intro hholds
      rcases hholds with hholds | hholds
      · exact .inl (.inl ((htrace.mp hholds).resolve_right h))
      · exact .inl (.inr hholds)
    · intro hholds
      rcases hholds.resolve_right h with hholds | hholds
      · exact .inl (htrace.mpr (.inl hholds))
      · exact .inr hholds

theorem holds_noteCompleted (m : FacadeMemory) (runId now runId' : String) :
    (m.noteCompleted runId now).Holds runId' ↔ m.Holds runId' ∨ runId' = runId := by
  unfold noteCompleted
  cases hat : m.runCompletedAt.get? runId with
  | some at_ =>
    -- The run is held already.
    refine ⟨.inl, fun h => h.elim id (fun hrun => ?_)⟩
    subst hrun
    refine (holds_iff m runId').mpr (.inr ((holdsLifetime_iff m runId').mpr (.inr (.inl ?_))))
    exact (Dict.mem_keys_iff _ _).mpr ⟨at_, hat⟩
  | none =>
    refine holds_of_lifetime rfl ?_
    rw [holdsLifetime_iff, holdsLifetime_iff]
    simp only [mem_keys_set]
    tauto

theorem holds_noteState (m : FacadeMemory) (runId now : String)
    (state : Except PyError RunLifecycleState) (runId' : String) :
    (m.noteState runId now state).Holds runId' ↔ m.Holds runId' ∨ (runId' = runId ∧ Ended state) := by
  by_cases hended : Ended state
  · obtain ⟨ended, hterminal, rfl⟩ := hended
    have hnote : m.noteState runId now (.ok ended) = m.noteCompleted runId now := if_pos hterminal
    have hyes : Ended (.ok ended) := ⟨ended, hterminal, rfl⟩
    rw [hnote, holds_noteCompleted]
    simp only [hyes, and_true]
  · have hnote : m.noteState runId now state = m := by
      cases state with
      | error e => rfl
      | ok state => exact if_neg (fun hterminal => hended ⟨state, hterminal, rfl⟩)
    rw [hnote]
    simp only [hended, and_false, or_false]

theorem noteCompleted_order (m : FacadeMemory) (runId now : String) :
    (m.noteCompleted runId now).trackedRunOrder = m.trackedRunOrder ∧
      (m.noteCompleted runId now).maxTrackedRuns = m.maxTrackedRuns := by
  unfold noteCompleted
  split
  · exact ⟨rfl, rfl⟩
  · exact ⟨rfl, rfl⟩

theorem noteState_order (m : FacadeMemory) (runId now : String)
    (state : Except PyError RunLifecycleState) :
    (m.noteState runId now state).trackedRunOrder = m.trackedRunOrder ∧
      (m.noteState runId now state).maxTrackedRuns = m.maxTrackedRuns := by
  cases state with
  | error e => exact ⟨rfl, rfl⟩
  | ok state =>
    show (if state ∈ terminalStates then m.noteCompleted runId now else m).trackedRunOrder = _ ∧
      (if state ∈ terminalStates then m.noteCompleted runId now else m).maxTrackedRuns = _
    split
    · exact m.noteCompleted_order runId now
    · exact ⟨rfl, rfl⟩

/-- All children that have ended are noted. -/
theorem holds_noteStates (m : FacadeMemory) (children : List String) (now : String)
    (state : String → Except PyError RunLifecycleState) (runId : String) :
    (children.foldl (fun m child => m.noteState child now (state child)) m).Holds runId ↔
      m.Holds runId ∨ (runId ∈ children ∧ Ended (state runId)) := by
  induction children generalizing m with
  | nil => simp
  | cons child rest ih =>
    rw [List.foldl_cons, ih, holds_noteState, List.mem_cons]
    constructor
    · intro h
      rcases h with (h | ⟨rfl, hended⟩) | ⟨hmem, hended⟩
      · exact .inl h
      · exact .inr ⟨.inl rfl, hended⟩
      · exact .inr ⟨.inr hmem, hended⟩
    · intro h
      rcases h with h | ⟨rfl | hmem, hended⟩
      · exact .inl (.inl h)
      · exact .inl (.inr ⟨rfl, hended⟩)
      · exact .inr ⟨hmem, hended⟩

theorem noteStates_order (m : FacadeMemory) (children : List String) (now : String)
    (state : String → Except PyError RunLifecycleState) :
    (children.foldl (fun m child => m.noteState child now (state child)) m).trackedRunOrder =
        m.trackedRunOrder ∧
      (children.foldl (fun m child => m.noteState child now (state child)) m).maxTrackedRuns =
        m.maxTrackedRuns := by
  induction children generalizing m with
  | nil => exact ⟨rfl, rfl⟩
  | cons child rest ih =>
    obtain ⟨horder, hmax⟩ := m.noteState_order child now (state child)
    rw [List.foldl_cons, (ih _).1, (ih _).2]
    exact ⟨horder, hmax⟩

theorem rebuildTraceState_order (m : FacadeMemory) (runId : String) (read : LogRead) :
    (m.rebuildTraceState runId read).trackedRunOrder = m.trackedRunOrder ∧
      (m.rebuildTraceState runId read).maxTrackedRuns = m.maxTrackedRuns := by
  cases read <;> exact ⟨rfl, rfl⟩

/-- Without a log, or without its answer, nothing is read. -/
theorem holds_rebuild (m : FacadeMemory) (runId : String) (read : LogRead) (runId' : String) :
    (m.rebuildTraceState runId read).Holds runId' ↔
      m.Holds runId' ∨ (runId' = runId ∧ ∃ events, read = .events events) := by
  cases read with
  | events events =>
    rw [holds_rebuildTraceState]
    simp
  | absent | failed => simp [rebuildTraceState]

section
variable (h : m.Tracking) (hbound : m.WithinBound)
include h hbound

theorem exact_startRun (runId now : String) :
    (m.startRun runId now).WithinBound ↔ runId ∈ m.trackedRunOrder := by
  have hadded := withinBound_of_added h hbound (show (m.startRun runId now).trackedRunOrder = _ from rfl)
    rfl (m.holds_startRun runId now)
  simpa using hadded

theorem exact_spawnChildRun (parent child kind now : String) :
    (m.spawnChildRun parent child kind now).WithinBound ↔
      parent ∈ m.trackedRunOrder ∧ child ∈ m.trackedRunOrder := by
  rw [withinBound_of_added h hbound
    (show (m.spawnChildRun parent child kind now).trackedRunOrder = _ from rfl) rfl
    (m.holds_spawnChildRun parent child kind now)]
  constructor
  · exact fun hall => ⟨hall parent (.inr rfl), hall child (.inl rfl)⟩
  · rintro ⟨hparent, hchild⟩ runId (rfl | rfl)
    · exact hchild
    · exact hparent

theorem exact_queryTraceRuntime (runId : String) (read : LogRead) :
    (m.rebuildTraceState runId read).WithinBound ↔
      ∀ events, read = .events events → runId ∈ m.trackedRunOrder := by
  obtain ⟨horder, hmax⟩ := m.rebuildTraceState_order runId read
  rw [withinBound_of_added h hbound horder hmax (m.holds_rebuild runId read)]
  constructor
  · exact fun hall events hread => hall runId ⟨rfl, events, hread⟩
  · rintro hall _ ⟨rfl, events, hread⟩
    exact hall events hread

theorem exact_queryRunPostmortem (runId now : String) (response : Except PyError Unit) (read : LogRead)
    (state : Except PyError RunLifecycleState) :
    (m.queryRunPostmortem runId now response read state).WithinBound ↔
      ((∃ u, response = .ok u) → read ≠ .failed → ((∃ events, read = .events events) ∨ Ended state) →
        runId ∈ m.trackedRunOrder) := by
  cases response with
  | error e =>
    constructor
    · rintro _ ⟨_, hu⟩
      cases hu
    · exact fun _ => hbound
  | ok u =>
    have hanswered : ∃ v, (Except.ok u : Except PyError Unit) = .ok v := ⟨u, rfl⟩
    by_cases hfailed : read = .failed
    · subst hfailed
      constructor
      · exact fun _ _ hread => absurd rfl hread
      · exact fun _ => hbound
    · have hquery : m.queryRunPostmortem runId now (.ok u) read state =
          (m.rebuildTraceState runId read).noteState runId now state := by
        cases read with
        | failed => exact absurd rfl hfailed
        | absent => rfl
        | events events => rfl
      obtain ⟨horder, hmax⟩ := (m.rebuildTraceState runId read).noteState_order runId now state
      obtain ⟨horder', hmax'⟩ := m.rebuildTraceState_order runId read
      have hholds : ∀ runId', ((m.rebuildTraceState runId read).noteState runId now state).Holds runId' ↔
          m.Holds runId' ∨ (runId' = runId ∧ ((∃ events, read = .events events) ∨ Ended state)) := by
        intro runId'
        rw [holds_noteState, holds_rebuild, or_assoc, ← and_or_left]
      rw [hquery, withinBound_of_added h hbound (horder.trans horder') (hmax.trans hmax') hholds]
      constructor
      · exact fun hall _ _ hnoted => hall runId ⟨rfl, hnoted⟩
      · rintro hall _ ⟨rfl, hnoted⟩
        exact hall hanswered hfailed hnoted

theorem exact_queryChildRuns (parent now : String) (active : Except PyError (List String))
    (state : String → Except PyError RunLifecycleState) :
    (m.queryChildRuns parent now state active).WithinBound ↔
      ∀ ids, active = .ok ids → ∀ child ∈ m.childRunIds parent ids, Ended (state child) →
        child ∈ m.trackedRunOrder := by
  cases active with
  | error e =>
    constructor
    · intro _ ids hids
      cases hids
    · exact fun _ => hbound
  | ok ids =>
    obtain ⟨horder, hmax⟩ := m.noteStates_order (m.childRunIds parent ids) now state
    show ((m.childRunIds parent ids).foldl _ m).WithinBound ↔ _
    rw [withinBound_of_added h hbound horder hmax (m.holds_noteStates (m.childRunIds parent ids) now state)]
    constructor
    · intro hall ids' hids child hchild hended
      cases hids
      exact hall child ⟨hchild, hended⟩
    · rintro hall child ⟨hchild, hended⟩
      exact hall ids rfl child hchild hended

theorem exact_cleanupCompletedRun (runId : String) :
    (m.cleanupCompletedRun runId).WithinBound ↔ ¬ m.HoldsLifetime runId := by
  have htracked := (withinBound_iff h).mp hbound
  have htracking : (m.cleanupCompletedRun runId).Tracking :=
    ⟨h.nodup.erase runId, Nat.le_trans (List.length_erase_le) h.few⟩
  have hgone : runId ∉ m.trackedRunOrder.erase runId := h.nodup.not_mem_erase
  have hholds : ∀ runId', (m.cleanupCompletedRun runId).Holds runId' ↔
      (runId' ≠ runId ∧ m.HoldsTrace runId') ∨ m.HoldsLifetime runId' := by
    intro runId'
    rw [holds_iff]
    exact or_congr_left (holdsTrace_purge _ runId runId')
  rw [withinBound_iff htracking]
  constructor
  · intro hall hheld
    exact hgone (hall runId ((hholds runId).mpr (.inr hheld)))
  · intro hnot runId' hheld
    have hne : runId' ≠ runId := by
      rintro rfl
      rcases (hholds runId').mp hheld with hheld | hheld
      · exact hheld.1 rfl
      · exact hnot hheld
    have hbefore : m.Holds runId' := by
      rw [holds_iff]
      exact ((hholds runId').mp hheld).imp And.right id
    exact (List.mem_erase_of_ne hne).mpr (htracked runId' hbefore)

end

/-! ### One operation on a trace -/

theorem mem_keys_of_size {ν : Type} (d : Dict String (Dict String ν)) {runId : String}
    (h : ((d.get? runId).getD Dict.empty).size ≠ 0) : runId ∈ d.keys := by
  cases hget : d.get? runId with
  | none =>
    rw [hget] at h
    exact absurd rfl h
  | some v => exact (Dict.mem_keys_iff d runId).mpr ⟨v, hget⟩

theorem mem_keys_of_texts (d : Dict String (List String)) {runId : String}
    (h : (d.get? runId).getD [] ≠ []) : runId ∈ d.keys := by
  cases hget : d.get? runId with
  | none =>
    rw [hget] at h
    exact absurd rfl h
  | some v => exact (Dict.mem_keys_iff d runId).mpr ⟨v, hget⟩

/-- What a record has is in a registry. -/
theorem holdsTrace_of_filled (m : FacadeMemory) {runId : String} (h : Filled (m.of runId)) :
    m.HoldsTrace runId := by
  unfold HoldsTrace traceRegistries
  simp only [List.mem_cons, List.not_mem_nil, or_false, exists_eq_or_imp, exists_eq_left]
  rcases h with h | h | h | h | h | h | h
  · exact .inl (mem_keys_of_size m.branchRegistry h)
  · exact .inr (.inl (mem_keys_of_size m.stageRegistry h))
  · refine .inr (.inr (.inl ?_))
    obtain ⟨ref, href⟩ := List.exists_mem_of_ne_nil _ h
    obtain ⟨k, hk, _⟩ := List.mem_map.mp href
    obtain ⟨hmem, hrun⟩ := List.mem_filter.mp hk
    exact List.mem_map.mpr ⟨k, hmem, by simpa using hrun⟩
  · exact .inr (.inr (.inr (.inl (mem_keys_of_texts m.openHumanGates h))))
  · exact .inr (.inr (.inr (.inr (.inl (mem_keys_of_texts m.resolvedHumanGates h)))))
  · exact .inr (.inr (.inr (.inr (.inr (.inl (mem_keys_of_size m.gateTypes h))))))
  · exact .inr (.inr (.inr (.inr (.inr (.inr (.inl (mem_keys_of_size m.gateResolutions h)))))))

theorem size_set_ne_zero {ν : Type} (d : Dict String ν) (k : String) (v : ν) : (d.set k v).size ≠ 0 := by
  intro hzero
  have hmem := (mem_keys_set d k k v).mpr (.inr rfl)
  rw [← Dict.length_keys] at hzero
  rw [List.length_eq_zero_iff.mp hzero] at hmem
  cases hmem

theorem insertText_ne_nil (s : String) (texts : List String) : insertText s texts ≠ [] :=
  List.ne_nil_of_mem (mem_insertText.mpr (.inl rfl))

/-- A record with nothing in it gets something from the operations that open, and from no
other. -/
theorem filled_perform {record record' : RunRecord} {n : Notification} {now : String}
    (hempty : ¬ Filled record) (h : record.perform now n = .goesOn record') :
    Filled record' ↔ n.Opens := by
  have hstages : ∀ id, record.stages.get? id = none := by
    intro id
    rw [Dict.get?_eq_none_iff]
    intro hmem
    have hsize : record.stages.size ≠ 0 := by
      rw [← Dict.length_keys]
      exact Nat.ne_of_gt (List.length_pos_of_mem hmem)
    exact hempty (.inr (.inl hsize))
  have hbranches : ∀ id, record.branches.get? id = none := by
    intro id
    rw [Dict.get?_eq_none_iff]
    intro hmem
    have hsize : record.branches.size ≠ 0 := by
      rw [← Dict.length_keys]
      exact Nat.ne_of_gt (List.length_pos_of_mem hmem)
    exact hempty (.inl hsize)
  cases n with
  | openStage stageId runId branchId =>
    cases h
    exact ⟨fun _ => trivial, fun _ => .inr (.inl (size_set_ne_zero record.stages stageId _))⟩
  | openBranch request =>
    cases h
    exact ⟨fun _ => trivial, fun _ => .inl (size_set_ne_zero record.branches request.branchId _)⟩
  | openHumanGate request =>
    cases h
    exact ⟨fun _ => trivial, fun _ => .inr (.inr (.inr (.inl
      (insertText_ne_nil request.gateRef record.openHumanGates))))⟩
  | submitApproval request =>
    by_cases hsubmitted : request.approvalRef ∈ record.submittedApprovals
    · exact absurd (.inr (.inr (.inl (List.ne_nil_of_mem hsubmitted)))) hempty
    · simp only [RunRecord.perform, if_neg hsubmitted] at h
      cases h
      exact ⟨fun _ => trivial, fun _ => .inr (.inr (.inl
        (insertText_ne_nil request.approvalRef record.submittedApprovals)))⟩
  | markStageState runId stageId newState failureCode =>
    simp only [RunRecord.perform, hstages] at h
    cases h
  | markBranchState request =>
    simp only [RunRecord.perform, hbranches] at h
    cases h
  | resolveEscalation | spawnChildRun | escalateRecovery | heartbeatTimeout =>
    cases h
    exact ⟨fun hfilled => absurd hfilled hempty, fun hopens => hopens.elim⟩

/-- What raises opens nothing, and only an approval is dropped. -/
theorem perform_stops {record : RunRecord} {n : Notification} {now : String}
    (hempty : ¬ Filled record) (h : n.Opens) :
    record.perform now n ≠ .raised ∧ record.perform now n ≠ .dropped := by
  cases n with
  | submitApproval request =>
    have hnew : request.approvalRef ∉ record.submittedApprovals := fun hmem =>
      hempty (.inr (.inr (.inl (List.ne_nil_of_mem hmem))))
    simp only [RunRecord.perform, if_neg hnew]
    exact ⟨Performed.noConfusion, Performed.noConfusion⟩
  | openStage | openBranch | openHumanGate =>
    exact ⟨Performed.noConfusion, Performed.noConfusion⟩
  | markStageState | markBranchState | resolveEscalation | spawnChildRun | escalateRecovery
  | heartbeatTimeout => exact h.elim

theorem holdsTrace_touch (h : m.Tracking) (runId runId' : String) :
    (m.touchRun runId).HoldsTrace runId' ↔ m.HoldsTrace runId' ∧
      (runId' ∈ m.trackedRunOrder ++ [runId] → runId' ∈ (m.touchRun runId).trackedRunOrder) := by
  unfold touchRun
  split
  · rename_i hmem
    refine ⟨fun hheld => ⟨hheld, fun hin => ?_⟩, And.left⟩
    rcases List.mem_append.mp hin with hin | hin
    · exact hin
    · exact List.mem_singleton.mp hin ▸ hmem
  · rename_i hnew
    exact m.holdsTrace_evict (h.nodup_new hnew) runId'

theorem holdsLifetime_touch (m : FacadeMemory) (runId runId' : String) :
    (m.touchRun runId).HoldsLifetime runId' ↔ m.HoldsLifetime runId' := by
  unfold HoldsLifetime
  rw [lifetimeRegistries_touch]

/-- Tracking a run keeps the bound when nothing it drops is held for its lifetime. -/
theorem withinBound_touch (h : m.Tracking) (hbound : m.WithinBound) (runId : String) :
    (m.touchRun runId).WithinBound ↔ ∀ runId' ∈ (m.trackedRunOrder ++ [runId]).filter (fun r =>
      r ∉ (m.touchRun runId).trackedRunOrder), ¬ m.HoldsLifetime runId' := by
  have htracked := (withinBound_iff h).mp hbound
  rw [withinBound_iff (tracking_touch h runId)]
  constructor
  · intro hall runId' hdropped hheld
    have hgone : runId' ∉ (m.touchRun runId).trackedRunOrder := by
      simpa using (List.mem_filter.mp hdropped).2
    exact hgone (hall runId' ((holds_iff _ _).mpr (.inr ((m.holdsLifetime_touch runId runId').mpr hheld))))
  · intro hdropped runId' hheld
    rcases (holds_iff _ _).mp hheld with hheld | hheld
    · obtain ⟨hbefore, hkept⟩ := (holdsTrace_touch h runId runId').mp hheld
      exact hkept (List.mem_append_left _ (htracked runId' ((holds_iff _ _).mpr (.inl hbefore))))
    · by_contra hgone
      have hbefore := (m.holdsLifetime_touch runId runId').mp hheld
      have hin := htracked runId' ((holds_iff _ _).mpr (.inr hbefore))
      refine hdropped runId' (List.mem_filter.mpr ⟨List.mem_append_left _ hin, ?_⟩) hbefore
      simpa using hgone

theorem tracking_enter (h : m.Tracking) (runId : String) (record : RunRecord) :
    (m.enter runId record).Tracking := ⟨h.nodup, h.few⟩

/-- Entries for a run that is tracked do not matter to the bound. -/
theorem withinBound_enter (h : m.Tracking) {runId : String} (hin : runId ∈ m.trackedRunOrder)
    (record : RunRecord) : (m.enter runId record).WithinBound ↔ m.WithinBound := by
  rw [withinBound_iff (tracking_enter h runId record), withinBound_iff h]
  have hother : ∀ runId', runId' ≠ runId → ((m.enter runId record).Holds runId' ↔ m.Holds runId') := by
    intro runId' hne
    rw [holds_iff, holds_iff, holdsTrace_enter, if_neg hne]
    exact Iff.rfl
  constructor
  · intro hall runId' hheld
    by_cases hrun : runId' = runId
    · exact hrun ▸ hin
    · exact hall runId' ((hother runId' hrun).mpr hheld)
  · intro hall runId' hheld
    by_cases hrun : runId' = runId
    · exact hrun ▸ hin
    · exact hall runId' ((hother runId' hrun).mp hheld)

/-- When no run may be tracked, the bound says that nothing is held. -/
theorem withinBound_iff_none (h : m.Tracking) (hmax : m.maxTrackedRuns = 0) :
    m.WithinBound ↔ ∀ runId, ¬ m.Holds runId := by
  have hnone : m.trackedRunOrder = [] :=
    List.length_eq_zero_iff.mp (Nat.le_zero.mp (hmax ▸ h.few))
  rw [withinBound_iff h, hnone]
  exact forall_congr' (fun runId => ⟨fun hall hheld => (nomatch hall hheld), fun hnot hheld =>
    absurd hheld hnot⟩)

theorem operate_touching {n : Notification} (h : n.touches = true) (now : String) :
    m.operate n now = match ((m.touchRun n.runId).of n.runId).perform now n with
      | .raised | .dropped => m.touchRun n.runId
      | .goesOn record => (m.touchRun n.runId).enter n.runId record := if_pos h

/-- What an operation drops are the runs that were in its way. -/
theorem mem_dropped_operate (h : m.Tracking) (n : Notification) (now runId : String) :
    runId ∈ m.dropped (.operate n now) ↔ runId ∈ m.outgoing n := by
  unfold dropped outgoing
  dsimp only
  by_cases htouches : n.touches = true
  · simp only [htouches, true_and, if_true]
    by_cases hmem : n.runId ∈ m.trackedRunOrder
    · simp [touchRun, hmem]
    · have hlength : (m.trackedRunOrder ++ [n.runId]).length = m.trackedRunOrder.length + 1 := by
        rw [List.length_append, List.length_singleton]
      have hkept : (m.touchRun n.runId).trackedRunOrder = (m.trackedRunOrder ++ [n.runId]).drop
          (m.trackedRunOrder.length + 1 - m.maxTrackedRuns) := by
        rw [touchRun, if_neg hmem, order_evict, hlength]
      rw [if_pos hmem, hkept, List.mem_filter, decide_eq_true_eq]
      generalize m.trackedRunOrder.length + 1 - m.maxTrackedRuns = k
      constructor
      · intro hgone
        have hin := hgone.1
        rw [← List.take_append_drop k (m.trackedRunOrder ++ [n.runId]), List.mem_append] at hin
        exact hin.resolve_right hgone.2
      · intro htaken
        exact ⟨List.mem_of_mem_take htaken,
          fun hdrop => List.disjoint_take_drop (h.nodup_new hmem) (Nat.le_refl k) htaken hdrop⟩
  · simp [htouches]

/-- A touched run that holds nothing and may not stay gets entries from what opens, and from
nothing else. -/
theorem withinBound_performed (htracking : m.Tracking) (hzero : m.maxTrackedRuns = 0)
    (hstill : ∀ runId, ¬ m.Holds runId) (n : Notification) (now : String) :
    (match (m.of n.runId).perform now n with
      | .raised | .dropped => m
      | .goesOn record => m.enter n.runId record).WithinBound ↔ ¬ n.Opens := by
  have hwithin := (withinBound_iff_none htracking hzero).mpr hstill
  have hempty : ¬ Filled (m.of n.runId) := fun hfilled =>
    hstill n.runId ((holds_iff _ _).mpr (.inl (holdsTrace_of_filled _ hfilled)))
  cases hperform : (m.of n.runId).perform now n with
  | raised => exact ⟨fun _ hopens => (perform_stops hempty hopens).1 hperform, fun _ => hwithin⟩
  | dropped => exact ⟨fun _ hopens => (perform_stops hempty hopens).2 hperform, fun _ => hwithin⟩
  | goesOn record =>
    have hfilled := filled_perform hempty hperform
    dsimp only
    rw [withinBound_iff_none (tracking_enter htracking n.runId record) hzero]
    constructor
    · intro hnone hopen
      refine hnone n.runId ((holds_iff _ _).mpr (.inl ?_))
      rw [holdsTrace_enter, if_pos rfl]
      exact .inl (hfilled.mpr hopen)
    · intro hnot runId hheld
      rcases (holds_iff _ _).mp hheld with hheld | hheld
      · rw [holdsTrace_enter] at hheld
        split at hheld
        · rcases hheld with hheld | hoffset
          · exact hnot (hfilled.mp hheld)
          · refine hstill n.runId ((holds_iff _ _).mpr (.inl ⟨_, ?_, hoffset⟩))
            simp [traceRegistries]
        · exact hstill runId ((holds_iff _ _).mpr (.inl hheld))
      · exact hstill runId ((holds_iff _ _).mpr (.inr hheld))

theorem not_opens_of_untouched {n : Notification} (h : ¬ n.touches = true) : ¬ n.Opens := by
  intro hopens
  cases n with
  | openStage | openBranch | openHumanGate | submitApproval => exact h rfl
  | markStageState | markBranchState | resolveEscalation | spawnChildRun | escalateRecovery
  | heartbeatTimeout => exact hopens.elim

theorem withinBound_operate (h : m.Tracking) (hbound : m.WithinBound) (n : Notification)
    (now : String) : (m.operate n now).WithinBound ↔
      (∀ runId ∈ m.dropped (.operate n now), ¬ m.HoldsLifetime runId) ∧
        (n.Opens → 0 < m.maxTrackedRuns) := by
  by_cases htouches : n.touches = true
  · have htouched := withinBound_touch h hbound n.runId
    have htracking := tracking_touch h n.runId
    have hdropped : m.dropped (.operate n now) = (m.trackedRunOrder ++ [n.runId]).filter (fun r =>
        r ∉ (m.touchRun n.runId).trackedRunOrder) := if_pos htouches
    rw [operate_touching htouches, hdropped, ← htouched]
    by_cases hmax : 0 < m.maxTrackedRuns
    · have hin := m.mem_touch n.runId hmax
      simp only [hmax, implies_true, and_true]
      split
      · exact Iff.rfl
      · exact Iff.rfl
      · exact withinBound_enter htracking hin _
    · -- No run may be tracked: nothing was held, and the run is dropped at once.
      have hzero : (m.touchRun n.runId).maxTrackedRuns = 0 := by
        rw [maxTrackedRuns_touch]
        omega
      have hnothing := (withinBound_iff_none h (by omega)).mp hbound
      have hstill : ∀ runId, ¬ (m.touchRun n.runId).Holds runId := by
        intro runId hheld
        refine hnothing runId ((holds_iff _ _).mpr ?_)
        rcases (holds_iff _ _).mp hheld with hheld | hheld
        · exact .inl ((holdsTrace_touch h n.runId runId).mp hheld).1
        · exact .inr ((m.holdsLifetime_touch n.runId runId).mp hheld)
      have hopens : (n.Opens → 0 < m.maxTrackedRuns) ↔ ¬ n.Opens :=
        ⟨fun himp hopens => hmax (himp hopens), fun hnot hopens => absurd hopens hnot⟩
      have hwithin := (withinBound_iff_none htracking hzero).mpr hstill
      simp only [hwithin, true_and, hopens]
      exact withinBound_performed htracking hzero hstill n now
  · have hoperate : m.operate n now = m := if_neg htouches
    have hdropped : m.dropped (.operate n now) = [] := if_neg htouches
    rw [hoperate, hdropped]
    exact ⟨fun _ => ⟨fun _ hmem => (nomatch hmem), fun hopen =>
      absurd hopen (not_opens_of_untouched htouches)⟩, fun _ => hbound⟩

theorem exact_operate (h : m.Tracking) (hbound : m.WithinBound) (n : Notification) (now : String) :
    (m.operate n now).WithinBound ↔
      (∀ runId ∈ m.outgoing n, ¬ m.HoldsLifetime runId) ∧ (n.Opens → 0 < m.maxTrackedRuns) := by
  rw [withinBound_operate h hbound n now]
  simp only [mem_dropped_operate h n now]

/-! ### All calls -/

/-- **One call** keeps the bound exactly when it is contained. -/
theorem exact_next (h : m.Tracking) (hbound : m.WithinBound) (call : MemoryCall) :
    (m.next call).WithinBound ↔ m.Contained call := by
  cases call with
  | startRun runId now => exact exact_startRun h hbound runId now
  | spawnChildRun parent child kind now => exact exact_spawnChildRun h hbound parent child kind now
  | operate n now => exact exact_operate h hbound n now
  | queryTraceRuntime runId read => exact exact_queryTraceRuntime h hbound runId read
  | queryRunPostmortem runId response read state now =>
    exact exact_queryRunPostmortem h hbound runId now response read state
  | queryChildRuns parent active state now => exact exact_queryChildRuns h hbound parent now active state
  | cleanupCompletedRun runId => exact exact_cleanupCompletedRun h hbound runId

theorem Tracking.next (h : m.Tracking) (call : MemoryCall) : (m.next call).Tracking := by
  have hsame : ∀ {m' : FacadeMemory}, m'.trackedRunOrder = m.trackedRunOrder ∧
      m'.maxTrackedRuns = m.maxTrackedRuns → m'.Tracking :=
    fun hkept => ⟨hkept.1 ▸ h.nodup, by rw [hkept.1, hkept.2]; exact h.few⟩
  cases call with
  | startRun runId now => exact hsame ⟨rfl, rfl⟩
  | spawnChildRun parent child kind now => exact hsame ⟨rfl, rfl⟩
  | operate n now =>
    show (m.operate n now).Tracking
    by_cases htouches : n.touches = true
    · have htouched := tracking_touch h n.runId
      rw [operate_touching htouches]
      split
      · exact htouched
      · exact htouched
      · exact tracking_enter htouched n.runId _
    · rw [show m.operate n now = m from if_neg htouches]
      exact h
  | queryTraceRuntime runId read => exact hsame (m.rebuildTraceState_order runId read)
  | queryRunPostmortem runId response read state now =>
    show (m.queryRunPostmortem runId now response read state).Tracking
    unfold queryRunPostmortem
    split
    · exact h
    · exact h
    · obtain ⟨horder, hmax⟩ := (m.rebuildTraceState runId read).noteState_order runId now state
      obtain ⟨horder', hmax'⟩ := m.rebuildTraceState_order runId read
      exact hsame ⟨horder.trans horder', hmax.trans hmax'⟩
  | queryChildRuns parent active state now =>
    cases active with
    | error e => exact h
    | ok ids => exact hsame (m.noteStates_order (m.childRunIds parent ids) now state)
  | cleanupCompletedRun runId =>
    exact ⟨h.nodup.erase runId, Nat.le_trans List.length_erase_le h.few⟩

/-- What a call drops is not tracked any more. -/
theorem not_mem_of_dropped (h : m.Tracking) {call : MemoryCall} {runId : String}
    (hdropped : runId ∈ m.dropped call) : runId ∉ (m.next call).trackedRunOrder := by
  cases call with
  | operate n now =>
    by_cases htouches : n.touches = true
    · have hd : m.dropped (.operate n now) = (m.trackedRunOrder ++ [n.runId]).filter (fun r =>
          r ∉ (m.touchRun n.runId).trackedRunOrder) := if_pos htouches
      have hgone : runId ∉ (m.touchRun n.runId).trackedRunOrder := by
        rw [hd] at hdropped
        simpa using (List.mem_filter.mp hdropped).2
      show runId ∉ (m.operate n now).trackedRunOrder
      rw [operate_touching htouches]
      split
      · exact hgone
      · exact hgone
      · exact hgone
    · have hd : m.dropped (.operate n now) = [] := if_neg htouches
      rw [hd] at hdropped
      cases hdropped
  | cleanupCompletedRun runId' =>
    obtain rfl : runId = runId' := List.mem_singleton.mp hdropped
    exact h.nodup.not_mem_erase
  | startRun | spawnChildRun | queryTraceRuntime | queryRunPostmortem | queryChildRuns => cases hdropped

/-- A new facade. -/
def opened (maxTrackedRuns : Nat) : FacadeMemory := { maxTrackedRuns := maxTrackedRuns }

theorem opened_within (maxTrackedRuns : Nat) :
    (opened maxTrackedRuns).Tracking ∧ (opened maxTrackedRuns).WithinBound := by
  have htracking : (opened maxTrackedRuns).Tracking := ⟨List.nodup_nil, Nat.zero_le _⟩
  refine ⟨htracking, (withinBound_iff htracking).mpr (fun runId hheld => ?_)⟩
  have hnot : ¬ (opened maxTrackedRuns).Holds runId := by
    simp [Holds, registries, traceRegistries, lifetimeRegistries, opened, Dict.keys, Dict.empty]
  exact absurd hheld hnot

/-- **The memory of a facade is bounded** by the runs it may track, and holds nothing of the
runs it drops, over any sequence of calls, exactly when every call is contained. -/
theorem memory_bounded_iff (maxTrackedRuns : Nat) (calls : List MemoryCall) :
    Bounded (opened maxTrackedRuns) calls ↔ Along next Contained (opened maxTrackedRuns) calls := by
  have hiff : (∀ pre, pre <+: calls → (run next (opened maxTrackedRuns) pre).WithinBound) ↔
      Along next Contained (opened maxTrackedRuns) calls :=
    forall_prefix_iff_along (J := fun (m : FacadeMemory) => m.Tracking ∧ m.WithinBound) (A := fun _ _ => True)
      (fun _ hm => hm.2) (fun _ call _ hm => exact_next hm.1 hm.2 call)
      (fun _ call _ hm hcontained =>
        ⟨hm.1.next call, (exact_next hm.1 hm.2 call).mpr hcontained⟩)
      (opened_within maxTrackedRuns) (.of_forall (fun _ _ => trivial) _ calls)
  constructor
  · exact fun hbounded => hiff.mp hbounded.within
  · intro hcontained
    have hwithin := hiff.mpr hcontained
    refine ⟨hwithin, fun pre call hpre runId hdropped hheld => ?_⟩
    have htracking : (run next (opened maxTrackedRuns) pre).Tracking :=
      run_invariant (fun _ call h => h.next call) (opened_within maxTrackedRuns).1 pre
    have hlater := hwithin (pre ++ [call]) hpre
    rw [run_append, run_cons, run_nil] at hlater hheld
    have hin := (withinBound_iff (htracking.next call)).mp hlater runId hheld
    exact not_mem_of_dropped htracking hdropped hin

/-- Two runs are started where one may be tracked, and the first is cleaned up: its time of
creation stays, and neither run is tracked. -/
theorem started_runs_stay : ¬ Bounded (opened 1) [.startRun "a" "t0", .startRun "b" "t1",
    .cleanupCompletedRun "a"] ∧
    (run next (opened 1) [.startRun "a" "t0", .startRun "b" "t1"]).runCreatedAt.keys = ["a", "b"] ∧
    (run next (opened 1) [.startRun "a" "t0", .startRun "b" "t1",
      .cleanupCompletedRun "a"]).Holds "a" := by
  have hcreated : ∀ m : FacadeMemory, m.runCreatedAt.keys ∈ m.registries := fun m =>
    List.mem_append_right m.traceRegistries (List.mem_cons_self ..)
  refine ⟨fun hbounded => ?_, by decide, _, hcreated _, by decide⟩
  have htracked := (hbounded.within [.startRun "a" "t0"] ⟨_, rfl⟩).tracked _ (hcreated _) "a"
    (by decide)
  exact absurd htracked (by decide)

end FacadeMemory
end AgentKernel.Facade
