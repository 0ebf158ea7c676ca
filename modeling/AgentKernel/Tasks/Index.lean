import AgentKernel.Tasks.Registry

/-! When the indexes of the registry are exact.

The session index always is: it lists every registered task once, under its own session
(`sessionExact_next`). The run index is kept by hand, and three calls let it drift: an
eviction does not take out the runs of the tasks it evicts, an attempt is indexed even when
it comes with an outcome, and an attempt on a run that works for another task takes the run
over. A run of calls keeps the indexes exact exactly when it does none of the three
(`index_exact_iff`). -/
namespace AgentKernel.Tasks
open Lib

namespace TaskRegistry
variable {r : TaskRegistry}

/-! ### What is asked of the indexes -/

/-- Every registered task is listed once, under its own session, and no other task is. -/
structure SessionExact (r : TaskRegistry) : Prop where
  once : ∀ sessionId, (r.sessionTasks sessionId).Nodup
  listed : ∀ sessionId taskId, taskId ∈ r.sessionTasks sessionId ↔
    ∃ d, r.get taskId = some d ∧ d.sessionId = sessionId

/-- A run is indexed to the registered task with an attempt under way on it. -/
def RunExact (r : TaskRegistry) : Prop :=
  ∀ runId taskId, r.getTaskIdForRun runId = some taskId ↔ r.Active taskId runId

structure IndexExact (r : TaskRegistry) : Prop where
  runs : r.RunExact
  sessions : r.SessionExact
  beats : ∀ runId now taskId,
    (r.heartbeatForRun runId now).tasks.get? taskId ≠ r.tasks.get? taskId → r.Active taskId runId

/-- What a call has to respect: an eviction takes out no task with an attempt under way;
an attempt comes without an outcome, or the task has one under way on its run already; and
no other task has. -/
def KeepsIndex (r : TaskRegistry) : TaskCall → Prop
  | .register d => d.taskId ∈ r.tasks.keys ∨ ∀ taskId ∈ r.toEvict, ∀ runId, ¬ r.Active taskId runId
  | .startAttempt a _ => a.taskId ∈ r.tasks.keys →
    (a.outcome = none ∨ r.Active a.taskId a.runId) ∧
      ∀ taskId, r.Active taskId a.runId → taskId = a.taskId
  | _ => True

/-! ### Eviction -/

theorem get?_evict (r : TaskRegistry) (evicted taskId : String) :
    (r.evict evicted).tasks.get? taskId = if taskId = evicted then none else r.tasks.get? taskId := by
  unfold evict
  split
  · rename_i habsent
    split
    · rename_i heq
      rw [heq, habsent]
    · rfl
  · exact Dict.get?_erase r.tasks evicted taskId

theorem get?_run_evict (r : TaskRegistry) (evicted : List String) (taskId : String) :
    (run evict r evicted).tasks.get? taskId =
      if taskId ∈ evicted then none else r.tasks.get? taskId := by
  induction evicted generalizing r with
  | nil => rfl
  | cons first rest ih =>
    rw [run_cons, ih, get?_evict]
    by_cases hrest : taskId ∈ rest
    · simp [hrest]
    · by_cases hfirst : taskId = first <;> simp [hrest, hfirst]

theorem get?_evictIfNeeded (r : TaskRegistry) (taskId : String) :
    r.evictIfNeeded.tasks.get? taskId = if taskId ∈ r.toEvict then none else r.tasks.get? taskId :=
  get?_run_evict r r.toEvict taskId

@[simp] theorem runIndex_evictIfNeeded (r : TaskRegistry) : r.evictIfNeeded.runIndex = r.runIndex := by
  refine run_invariant (I := fun r' : TaskRegistry => r'.runIndex = r.runIndex) ?_ rfl r.toEvict
  intro r' evicted h
  unfold evict
  split
  · exact h
  · exact h

/-! ### Which attempts are under way -/

theorem active_evictIfNeeded (taskId runId : String) :
    r.evictIfNeeded.Active taskId runId ↔ taskId ∉ r.toEvict ∧ r.Active taskId runId := by
  unfold Active
  rw [get?_evictIfNeeded]
  split <;> simp_all

/-- A task that was just registered has no attempt. -/
theorem active_insert {d : TaskDescriptor} (hnew : r.tasks.get? d.taskId = none)
    (taskId runId : String) : (r.insert d).Active taskId runId ↔ r.Active taskId runId := by
  unfold Active insert
  rw [Dict.get?_set]
  split
  · rename_i heq
    rw [heq, hnew]
    simp [TaskEntry.ActiveOn]
  · exact Iff.rfl

theorem active_begin {a : TaskAttempt} {now : Int} (hknown : a.taskId ∈ r.tasks.keys)
    (taskId runId : String) :
    (r.begin a now).Active taskId runId ↔
      r.Active taskId runId ∨ taskId = a.taskId ∧ a.ActiveOn runId := by
  obtain ⟨entry, hget⟩ := (Dict.mem_keys_iff _ _).mp hknown
  unfold Active begin
  rw [Dict.get?_modify]
  by_cases heq : taskId = a.taskId
  · subst heq
    simp only [if_true, hget, Option.map_some, Option.some.injEq, exists_eq_left', true_and,
      TaskEntry.ActiveOn, TaskEntry.start, List.mem_append, List.mem_singleton]
    constructor
    · rintro ⟨a', hmem | rfl, hactive⟩
      · exact .inl ⟨a', hmem, hactive⟩
      · exact .inr hactive
    · rintro (⟨a', hmem, hactive⟩ | hactive)
      · exact ⟨a', .inl hmem, hactive⟩
      · exact ⟨a, .inr rfl, hactive⟩
  · simp [heq]

theorem activeOn_complete {runId runId' : String} {outcome : TaskOutcome} {failure : Option Value}
    {nowIso : String} (entry : TaskEntry) :
    (entry.complete runId outcome failure nowIso).ActiveOn runId' ↔
      runId' ≠ runId ∧ entry.ActiveOn runId' := by
  unfold TaskEntry.ActiveOn TaskEntry.complete
  simp only [List.mem_map]
  constructor
  · rintro ⟨_, ⟨a, hmem, rfl⟩, hactive⟩
    split at hactive
    · exact absurd hactive.2 (by simp [TaskAttempt.complete])
    · rename_i hother
      refine ⟨?_, a, hmem, hactive⟩
      rintro rfl
      exact hother hactive
  · rintro ⟨hne, a, hmem, hactive⟩
    refine ⟨a, ⟨a, hmem, if_neg ?_⟩, hactive⟩
    intro hended
    exact hne (hactive.1.symm.trans hended.1)

theorem active_finish {taskId' runId' : String} {outcome : TaskOutcome} {failure : Option Value}
    {nowIso : String} (taskId runId : String) :
    (r.finish taskId' runId' outcome failure nowIso).Active taskId runId ↔
      r.Active taskId runId ∧ ¬ (taskId = taskId' ∧ runId = runId') := by
  unfold Active finish
  rw [Dict.get?_modify]
  by_cases heq : taskId = taskId'
  · cases r.tasks.get? taskId with
    | none => simp
    | some entry =>
      simp only [heq, if_true, Option.map_some, Option.some.injEq, exists_eq_left',
        activeOn_complete, true_and]
      exact And.comm
  · simp [heq]

/-! ### The session index -/

theorem SessionExact.of_get {r' : TaskRegistry} (h : r.SessionExact)
    (hindex : r'.sessionIndex = r.sessionIndex) (hget : ∀ taskId, r'.get taskId = r.get taskId) :
    r'.SessionExact := by
  have hsessions : ∀ sessionId, r'.sessionTasks sessionId = r.sessionTasks sessionId := by
    intro sessionId
    rw [sessionTasks, hindex, sessionTasks]
  refine ⟨fun sessionId => hsessions sessionId ▸ h.once sessionId, fun sessionId taskId => ?_⟩
  rw [hsessions, hget]
  exact h.listed sessionId taskId

theorem sessionExact_evict (h : r.SessionExact) (evicted : String) : (r.evict evicted).SessionExact := by
  have hget : ∀ taskId, (r.evict evicted).get taskId = if taskId = evicted then none else r.get taskId := by
    intro taskId
    unfold get
    rw [get?_evict]
    split <;> rfl
  unfold evict at hget ⊢
  split at hget
  · exact h
  · rename_i entry hentry
    have hsessions : ∀ sessionId,
        (sessionTasks { r with
          tasks := r.tasks.erase evicted
          sessionIndex := r.sessionIndex.modify entry.descriptor.sessionId (·.filter (· ≠ evicted)) }
          sessionId) =
        if sessionId = entry.descriptor.sessionId then
          (r.sessionTasks sessionId).filter (· ≠ evicted) else r.sessionTasks sessionId := by
      intro sessionId
      unfold sessionTasks
      rw [Dict.get?_modify]
      split
      · cases r.sessionIndex.get? sessionId <;> rfl
      · rfl
    constructor
    · intro sessionId
      rw [hsessions]
      split
      · exact (h.once sessionId).filter _
      · exact h.once sessionId
    · intro sessionId taskId
      rw [hsessions, hget]
      by_cases hevicted : taskId = evicted
      · subst hevicted
        have hown : r.get taskId = some entry.descriptor := by rw [get, hentry]; rfl
        by_cases hsession : sessionId = entry.descriptor.sessionId
        · simp [hsession]
        · have hunlisted : taskId ∉ r.sessionTasks sessionId := by
            rw [h.listed, hown]
            rintro ⟨d, hd, hsame⟩
            rw [← Option.some.inj hd] at hsame
            exact hsession hsame.symm
          simp [hsession, hunlisted]
      · rw [if_neg hevicted, ← h.listed]
        split <;> simp [hevicted]

theorem sessionExact_insert {d : TaskDescriptor} (h : r.SessionExact) (hnew : r.tasks.get? d.taskId = none) :
    (r.insert d).SessionExact := by
  have hunlisted : ∀ sessionId, d.taskId ∉ r.sessionTasks sessionId := by
    intro sessionId hmem
    obtain ⟨d', hget, _⟩ := (h.listed sessionId d.taskId).mp hmem
    rw [get, hnew] at hget
    cases hget
  have hsessions : ∀ sessionId, (r.insert d).sessionTasks sessionId =
      if sessionId = d.sessionId then r.sessionTasks sessionId ++ [d.taskId]
      else r.sessionTasks sessionId := by
    intro sessionId
    unfold insert sessionTasks
    rw [Dict.get?_set]
    split
    · rename_i heq
      rw [heq]
      rfl
    · rfl
  have hget : ∀ taskId, (r.insert d).get taskId = if taskId = d.taskId then some d else r.get taskId := by
    intro taskId
    unfold insert get
    rw [Dict.get?_set]
    split <;> rfl
  constructor
  · intro sessionId
    rw [hsessions]
    split
    · refine List.nodup_append.mpr ⟨h.once sessionId, List.nodup_singleton _, ?_⟩
      intro a ha b hb hab
      rw [List.mem_singleton.mp hb] at hab
      exact hunlisted sessionId (hab ▸ ha)
    · exact h.once sessionId
  · intro sessionId taskId
    rw [hsessions, hget]
    by_cases htask : taskId = d.taskId
    · subst htask
      by_cases hsession : sessionId = d.sessionId
      · simp [hsession]
      · have hne : d.sessionId ≠ sessionId := fun heq => hsession heq.symm
        simp [hsession, hne, hunlisted]
    · rw [if_neg htask, ← h.listed]
      split <;> simp [htask]

theorem SameWork.sessionExact {r' : TaskRegistry} (same : SameWork r r') (h : r.SessionExact) :
    r'.SessionExact := h.of_get same.sessions same.get

theorem sessionExact_evictIfNeeded (h : r.SessionExact) : r.evictIfNeeded.SessionExact :=
  run_invariant (I := SessionExact) (fun _ evicted h => sessionExact_evict h evicted) h r.toEvict

theorem evictIfNeeded_new {d : TaskDescriptor} (hnew : d.taskId ∉ r.tasks.keys) :
    r.evictIfNeeded.tasks.get? d.taskId = none := by
  rw [get?_evictIfNeeded, (Dict.get?_eq_none_iff _ _).mpr hnew]
  exact ite_self none

theorem get_begin (r : TaskRegistry) (a : TaskAttempt) (now : Int) (taskId : String) :
    (r.begin a now).get taskId = r.get taskId := by
  unfold get begin
  rw [Dict.get?_modify]
  split
  · cases r.tasks.get? taskId <;> rfl
  · rfl

theorem get_finish (r : TaskRegistry) (taskId' runId : String) (outcome : TaskOutcome)
    (failure : Option Value) (nowIso : String) (taskId : String) :
    (r.finish taskId' runId outcome failure nowIso).get taskId = r.get taskId := by
  unfold get finish
  rw [Dict.get?_modify]
  split
  · cases r.tasks.get? taskId <;> rfl
  · rfl

theorem sessionExact_completeAttempt (h : r.SessionExact) (taskId runId : String)
    (outcome : TaskOutcome) (failure : Option Value) (nowIso : String) :
    (r.completeAttempt taskId runId outcome failure nowIso).SessionExact := by
  unfold completeAttempt
  split
  · exact h.of_get rfl (get_finish r taskId runId outcome failure nowIso)
  · exact h

/-- **Every call keeps the session index exact.** -/
theorem sessionExact_next (h : r.SessionExact) (call : TaskCall) : (r.next call).SessionExact := by
  cases call with
  | register d =>
    by_cases hknown : d.taskId ∈ r.tasks.keys
    · rw [next_register_known hknown]
      exact h
    · rw [next_register_new hknown]
      have hinserted := sessionExact_insert (sessionExact_evictIfNeeded h) (evictIfNeeded_new hknown)
      exact hinserted.of_get rfl (fun _ => rfl)
  | startAttempt a now =>
    by_cases hknown : a.taskId ∈ r.tasks.keys
    · rw [next_start_known hknown]
      exact h.of_get rfl (get_begin r a now)
    · rw [next_start_unknown hknown]
      exact h
  | completeAttempt taskId runId outcome failure nowIso =>
    exact sessionExact_completeAttempt h taskId runId outcome failure nowIso
  | updateState taskId state => exact (sameWork_updateState r taskId state).sessionExact h
  | heartbeat taskId now => exact (sameWork_heartbeat r taskId now).sessionExact h
  | heartbeatForRun runId now => exact (sameWork_heartbeatForRun r runId now).sessionExact h
  | getStalledTasks now => exact (sameWork_getStalledTasks r now).sessionExact h
  | onRunLifecycleTransition runId toState now nowIso =>
    have hbeat := (sameWork_heartbeatForRun r runId now).sessionExact h
    rw [next_transition]
    split
    · exact sessionExact_completeAttempt hbeat _ _ _ none nowIso
    · exact hbeat

/-! ### The run index -/

theorem SameWork.runExact {r' : TaskRegistry} (same : SameWork r r') (h : r.RunExact) : r'.RunExact := by
  intro runId taskId
  rw [same.active, getTaskIdForRun, same.runs]
  exact h runId taskId

theorem runExact_completeAttempt (h : r.RunExact) (taskId runId : String) (outcome : TaskOutcome)
    (failure : Option Value) (nowIso : String) :
    (r.completeAttempt taskId runId outcome failure nowIso).RunExact := by
  unfold completeAttempt
  split
  · rename_i hactive
    intro runId' taskId'
    have hindex : (r.finish taskId runId outcome failure nowIso).getTaskIdForRun runId' =
        if runId' = runId then none else r.getTaskIdForRun runId' := Dict.get?_erase r.runIndex runId runId'
    show (r.finish taskId runId outcome failure nowIso).getTaskIdForRun runId' = some taskId' ↔
      (r.finish taskId runId outcome failure nowIso).Active taskId' runId'
    rw [active_finish, hindex]
    by_cases hrun : runId' = runId
    · subst hrun
      -- the index has one task for the run, so no other task is at work on it
      have hunique : r.Active taskId' runId' → taskId' = taskId := by
        intro hother
        have h₁ := (h runId' taskId').mpr hother
        have h₂ := (h runId' taskId).mpr hactive
        exact Option.some.inj (h₁.symm.trans h₂)
      simpa using hunique
    · rw [if_neg hrun, h runId' taskId']
      simp [hrun]
  · exact h

theorem runExact_register (h : r.RunExact) {d : TaskDescriptor} (hnew : d.taskId ∉ r.tasks.keys) :
    (r.next (.register d)).RunExact ↔ ∀ taskId ∈ r.toEvict, ∀ runId, ¬ r.Active taskId runId := by
  have hactive : ∀ taskId runId, (r.next (.register d)).Active taskId runId ↔
      taskId ∉ r.toEvict ∧ r.Active taskId runId := by
    intro taskId runId
    rw [next_register_new hnew, ← active_evictIfNeeded]
    exact active_insert (evictIfNeeded_new hnew) taskId runId
  have hindex : ∀ runId, (r.next (.register d)).getTaskIdForRun runId = r.getTaskIdForRun runId := by
    intro runId
    rw [next_register_new hnew]
    show r.evictIfNeeded.runIndex.get? runId = _
    rw [runIndex_evictIfNeeded]
    rfl
  constructor
  · intro hexact taskId hevicted runId hstale
    have hindexed := (h runId taskId).mpr hstale
    rw [← hindex, hexact runId taskId, hactive] at hindexed
    exact hindexed.1 hevicted
  · intro hidle runId taskId
    rw [hindex, hactive, h runId taskId]
    refine ⟨fun hact => ⟨?_, hact⟩, And.right⟩
    intro hevicted
    exact hidle taskId hevicted runId hact

theorem runExact_start (h : r.RunExact) {a : TaskAttempt} {now : Int} (hknown : a.taskId ∈ r.tasks.keys) :
    (r.next (.startAttempt a now)).RunExact ↔
      (a.outcome = none ∨ r.Active a.taskId a.runId) ∧
        ∀ taskId, r.Active taskId a.runId → taskId = a.taskId := by
  have hactive : ∀ taskId runId, (r.next (.startAttempt a now)).Active taskId runId ↔
      r.Active taskId runId ∨ taskId = a.taskId ∧ a.ActiveOn runId := by
    intro taskId runId
    rw [next_start_known hknown]
    exact active_begin hknown taskId runId
  have hindex : ∀ runId, (r.next (.startAttempt a now)).getTaskIdForRun runId =
      if runId = a.runId then some a.taskId else r.getTaskIdForRun runId := by
    intro runId
    rw [next_start_known hknown]
    exact Dict.get?_set r.runIndex a.runId runId a.taskId
  constructor
  · intro hexact
    have hown := (hexact a.runId a.taskId).mp (by rw [hindex, if_pos rfl])
    constructor
    · rcases (hactive _ _).mp hown with hold | ⟨_, hfresh⟩
      · exact .inr hold
      · exact .inl hfresh.2
    · intro taskId hold
      have hindexed := (hexact a.runId taskId).mpr ((hactive _ _).mpr (.inl hold))
      rw [hindex, if_pos rfl] at hindexed
      exact (Option.some.inj hindexed).symm
  · rintro ⟨hopen, hown⟩ runId taskId
    rw [hindex, hactive]
    by_cases hrun : runId = a.runId
    · subst hrun
      rw [if_pos rfl, Option.some.injEq]
      constructor
      · rintro rfl
        rcases hopen with hfresh | hold
        · exact .inr ⟨rfl, rfl, hfresh⟩
        · exact .inl hold
      · rintro (hold | ⟨heq, _⟩)
        · exact (hown taskId hold).symm
        · exact heq.symm
    · rw [if_neg hrun, h runId taskId]
      have hother : ¬ a.ActiveOn runId := fun hactiveOn => hrun hactiveOn.1.symm
      simp [hother]

/-- **A call leaves an exact run index exact exactly when it respects the index.** -/
theorem runExact_next (h : r.RunExact) (call : TaskCall) :
    (r.next call).RunExact ↔ r.KeepsIndex call := by
  cases call with
  | register d =>
    by_cases hknown : d.taskId ∈ r.tasks.keys
    · rw [next_register_known hknown]
      exact iff_of_true h (.inl hknown)
    · rw [runExact_register h hknown]
      simp [KeepsIndex, hknown]
  | startAttempt a now =>
    by_cases hknown : a.taskId ∈ r.tasks.keys
    · rw [runExact_start h hknown]
      simp [KeepsIndex, hknown]
    · rw [next_start_unknown hknown]
      exact iff_of_true h (fun hmem => absurd hmem hknown)
  | completeAttempt taskId runId outcome failure nowIso =>
    exact iff_of_true (runExact_completeAttempt h taskId runId outcome failure nowIso) trivial
  | updateState taskId state => exact iff_of_true ((sameWork_updateState r taskId state).runExact h) trivial
  | heartbeat taskId now => exact iff_of_true ((sameWork_heartbeat r taskId now).runExact h) trivial
  | heartbeatForRun runId now =>
    exact iff_of_true ((sameWork_heartbeatForRun r runId now).runExact h) trivial
  | getStalledTasks now => exact iff_of_true ((sameWork_getStalledTasks r now).runExact h) trivial
  | onRunLifecycleTransition runId toState now nowIso =>
    refine iff_of_true ?_ trivial
    have hbeat := (sameWork_heartbeatForRun r runId now).runExact h
    rw [next_transition]
    split
    · exact runExact_completeAttempt hbeat _ _ _ none nowIso
    · exact hbeat

/-- An exact run index sends a heartbeat to no task without an attempt on the run. -/
theorem beats_of_runExact (h : r.RunExact) (runId : String) (now : Int) (taskId : String)
    (hchanged : (r.heartbeatForRun runId now).tasks.get? taskId ≠ r.tasks.get? taskId) :
    r.Active taskId runId := by
  unfold heartbeatForRun at hchanged
  split at hchanged
  · rename_i indexed hindexed
    rw [heartbeat, Dict.get?_modify] at hchanged
    split at hchanged
    · rename_i heq
      rw [heq]
      exact (h runId indexed).mp hindexed
    · exact absurd rfl hchanged
  · exact absurd rfl hchanged

theorem indexExact_iff (h : r.SessionExact) : r.IndexExact ↔ r.RunExact :=
  ⟨IndexExact.runs, fun hruns => ⟨hruns, h, beats_of_runExact hruns⟩⟩

theorem indexExact_fresh (maxTasks : Int) (log : Option InMemoryTaskEventLog) :
    IndexExact { maxTasks := maxTasks, eventAppender := log } := by
  have hsessions : SessionExact { maxTasks := maxTasks, eventAppender := log } := by
    refine ⟨fun _ => List.nodup_nil, fun sessionId taskId => ?_⟩
    exact iff_of_false List.not_mem_nil (fun ⟨_, h, _⟩ => nomatch h)
  refine (indexExact_iff hsessions).mpr (fun runId taskId => ?_)
  exact iff_of_false (fun h => nomatch h) (fun ⟨_, h, _⟩ => nomatch h)

end TaskRegistry

/-- **When the indexes of the registry are exact.** The indexes are exact after every prefix
of a run of calls exactly when every call of it respects the run index where it is made. -/
theorem index_exact_iff (maxTasks : Int) (log : Option InMemoryTaskEventLog)
    (calls : List TaskRegistry.TaskCall) :
    (∀ pre, pre <+: calls →
      (run TaskRegistry.next { maxTasks := maxTasks, eventAppender := log } pre).IndexExact) ↔
    Along TaskRegistry.next TaskRegistry.KeepsIndex { maxTasks := maxTasks, eventAppender := log }
      calls := by
  refine forall_prefix_iff_along (A := fun _ _ => True) (fun _ h => h) ?_ ?_
    (TaskRegistry.indexExact_fresh maxTasks log) (.of_forall (fun _ _ => trivial) _ calls)
  · intro r call _ h
    rw [TaskRegistry.indexExact_iff (TaskRegistry.sessionExact_next h.sessions call)]
    exact TaskRegistry.runExact_next h.runs call
  · intro r call _ h hkeeps
    have hruns := (TaskRegistry.runExact_next h.runs call).mpr hkeeps
    exact (TaskRegistry.indexExact_iff (TaskRegistry.sessionExact_next h.sessions call)).mpr hruns

namespace Sample

/-- A task is aborted while its run is still under way, and evicted. -/
def aborted : List TaskRegistry.TaskCall :=
  [.register (task "first"), .startAttempt (attempt "first" "run" 1) 0,
    .updateState "first" .aborted, .register (task "second")]

end Sample

/-- The run of an evicted task stays indexed to it. -/
theorem index_outlives_task :
    ¬ (run TaskRegistry.next { maxTasks := 1 } Sample.aborted).IndexExact := by
  intro h
  have hindexed : (run TaskRegistry.next { maxTasks := 1 } Sample.aborted).getTaskIdForRun "run" =
      some "first" := by decide +kernel
  have hidle : ¬ (run TaskRegistry.next { maxTasks := 1 } Sample.aborted).Active "first" "run" := by
    decide +kernel
  exact hidle ((h.runs "run" "first").mp hindexed)

end AgentKernel.Tasks
