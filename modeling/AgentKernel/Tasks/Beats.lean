import AgentKernel.Lib.Tally
import AgentKernel.Tasks.Index

/-! What the missed beats of a task count.

The counter is set back by a beat of the task, told for the task or for a run that the index has for
it, and counted up by every sweep that lists the task as stalled. Nothing else touches it: an attempt
that starts inherits what the attempt before it missed. So the health of a task shows the number of
sweeps that listed it since its last beat (`missed_beats_count`). -/
namespace AgentKernel.Tasks
open Lib

namespace TaskRegistry
variable {r : TaskRegistry}

/-- The call beats for the task, or registers it. -/
def Resets (taskId : String) (r : TaskRegistry) : TaskCall → Bool
  | .register d => d.taskId = taskId ∧ taskId ∉ r.tasks.keys
  | .heartbeat taskId' _ => taskId' = taskId
  | .heartbeatForRun runId _ | .onRunLifecycleTransition runId _ _ _ => r.getTaskIdForRun runId = some taskId
  | _ => false

/-- The call is a sweep whose answer lists the task. -/
def Lists (taskId : String) (r : TaskRegistry) : TaskCall → Bool
  | .getStalledTasks now => taskId ∈ (r.getStalledTasks now).2.map TaskHealthStatus.taskId
  | _ => false

/-- The beats a task has missed, if there is such a task. -/
def missedBeats (taskId : String) (r : TaskRegistry) : Option Nat :=
  (r.tasks.get? taskId).map TaskEntry.consecutiveMissedBeats

/-! ### What a call does to the counter -/

theorem missedBeats_modify (r : TaskRegistry) (taskId taskId' : String) {f : TaskEntry → TaskEntry}
    (h : ∀ entry, (f entry).consecutiveMissedBeats = entry.consecutiveMissedBeats) :
    ((r.tasks.modify taskId' f).get? taskId).map TaskEntry.consecutiveMissedBeats = r.missedBeats taskId := by
  rw [Dict.get?_modify, missedBeats]
  split
  · cases r.tasks.get? taskId with
    | none => rfl
    | some entry => exact congrArg some (h entry)
  · rfl

theorem missedBeats_heartbeat (r : TaskRegistry) (taskId taskId' : String) (now : Int) :
    (r.heartbeat taskId' now).missedBeats taskId =
      if taskId = taskId' then (r.missedBeats taskId).map (fun _ => 0) else r.missedBeats taskId := by
  unfold heartbeat missedBeats
  rw [Dict.get?_modify]
  split
  · cases r.tasks.get? taskId <;> rfl
  · rfl

theorem missedBeats_heartbeatForRun (r : TaskRegistry) (taskId runId : String) (now : Int) :
    (r.heartbeatForRun runId now).missedBeats taskId =
      if r.getTaskIdForRun runId = some taskId then (r.missedBeats taskId).map (fun _ => 0)
      else r.missedBeats taskId := by
  unfold heartbeatForRun getTaskIdForRun
  cases r.runIndex.get? runId with
  | none => rfl
  | some taskId' =>
    rw [missedBeats_heartbeat]
    simp only [Option.some.injEq, eq_comm]

theorem missedBeats_completeAttempt (r : TaskRegistry) (taskId taskId' runId : String) (outcome : TaskOutcome)
    (failure : Option Value) (nowIso : String) :
    (r.completeAttempt taskId' runId outcome failure nowIso).missedBeats taskId = r.missedBeats taskId := by
  unfold completeAttempt
  split
  · exact missedBeats_modify r taskId taskId' (fun _ => rfl)
  · rfl

theorem missedBeats_updateState (r : TaskRegistry) (taskId taskId' : String) (state : TaskLifecycleState) :
    (r.updateState taskId' state).missedBeats taskId = r.missedBeats taskId := by
  have h := missedBeats_modify r taskId taskId' (f := TaskEntry.setState state) (fun _ => rfl)
  unfold updateState
  split
  · cases stateEvent state with
    | none => exact h
    | some event => exact h
  · rfl

/-- A new task has missed nothing. Making room for it takes tasks out, and leaves the others. -/
theorem missedBeats_register {d : TaskDescriptor} (hnew : d.taskId ∉ r.tasks.keys) {taskId : String}
    {n : Nat} (h : (r.next (.register d)).missedBeats taskId = some n) :
    if d.taskId = taskId then n = 0 else r.missedBeats taskId = some n := by
  rw [next_register_new hnew, missedBeats, emit_tasks, insert, Dict.get?_set] at h
  by_cases htask : taskId = d.taskId
  · rw [if_pos htask] at h
    rw [if_pos htask.symm]
    exact (Option.some.inj h).symm
  · rw [if_neg htask, get?_evictIfNeeded] at h
    rw [if_neg (Ne.symm htask)]
    split at h
    · cases h
    · exact h

/-- The watchdog is told of a transition: a beat for the run. Ending its attempt leaves the counter. -/
theorem missedBeats_transition (r : TaskRegistry) (taskId runId toState : String) (now : Int)
    (nowIso : String) :
    (r.next (.onRunLifecycleTransition runId toState now nowIso)).missedBeats taskId =
      if r.getTaskIdForRun runId = some taskId then (r.missedBeats taskId).map (fun _ => 0)
      else r.missedBeats taskId := by
  rw [next_transition, ← missedBeats_heartbeatForRun r taskId runId now]
  split
  · exact missedBeats_completeAttempt _ taskId _ _ _ none nowIso
  · rfl

/-- A counter after a beat that may be for another task. -/
theorem beaten {p : Prop} [Decidable p] {before : Option Nat} {n : Nat}
    (h : (if p then before.map (fun _ => 0) else before) = some n) :
    if p then n = 0 else ∃ m, before = some m ∧ n = m + 0 := by
  split at h
  · obtain ⟨_, _, hn⟩ := Option.map_eq_some_iff.mp h
    rw [if_pos ‹p›]
    exact hn.symm
  · rw [if_neg ‹¬ p›]
    exact ⟨n, h, rfl⟩

/-! ### Sweeps -/

theorem stalled_sweep (now : Int) (entry : TaskEntry) :
    (entry.sweep now).stalled now = entry.stalled now := by
  unfold TaskEntry.sweep
  split <;> rfl

/-- A sweep lists the tasks that are stalled. -/
theorem lists_iff (taskId : String) (now : Int) :
    Lists taskId r (.getStalledTasks now) = (r.tasks.get? taskId).any (·.stalled now) := by
  rw [Bool.eq_iff_iff, Option.any_eq_true, Lists, decide_eq_true_eq]
  simp only [getStalledTasks, List.map_map, List.mem_map, List.mem_filter]
  constructor
  · rintro ⟨⟨taskId', swept⟩, ⟨hmem, hstalled⟩, rfl⟩
    rw [Dict.mem_entries_iff, Dict.get?_map, Option.map_eq_some_iff] at hmem
    obtain ⟨entry, hget, rfl⟩ := hmem
    exact ⟨entry, hget, (stalled_sweep now entry).symm.trans hstalled⟩
  · rintro ⟨entry, hget, hstalled⟩
    refine ⟨(taskId, entry.sweep now), ⟨?_, (stalled_sweep now entry).trans hstalled⟩, rfl⟩
    rw [Dict.mem_entries_iff, Dict.get?_map, hget]
    rfl

theorem missedBeats_sweep (r : TaskRegistry) (taskId : String) (now : Int) :
    (r.getStalledTasks now).1.missedBeats taskId =
      (r.missedBeats taskId).map (· + (Lists taskId r (.getStalledTasks now)).toNat) := by
  rw [lists_iff, getStalledTasks, missedBeats, missedBeats, Dict.get?_map]
  cases r.tasks.get? taskId with
  | none => rfl
  | some entry =>
    simp only [Option.map_some, Option.any_some, TaskEntry.sweep]
    cases entry.stalled now <;> rfl

/-! ### Every call -/

/-- **A call sets the missed beats back, counts one more, or leaves them.** -/
theorem missedBeats_tallies (taskId : String) :
    Tallies next (Resets taskId) (Lists taskId) (missedBeats taskId) := by
  intro r call n h
  cases call with
  | register d =>
    by_cases hknown : d.taskId ∈ r.tasks.keys
    · rw [next_register_known hknown] at h
      have hresets : Resets taskId r (.register d) = false := by
        refine decide_eq_false ?_
        rintro ⟨rfl, hnew⟩
        exact hnew hknown
      rw [hresets, if_neg Bool.false_ne_true]
      exact ⟨n, h, rfl⟩
    · have hregister := missedBeats_register hknown h
      by_cases htask : d.taskId = taskId
      · have hresets : Resets taskId r (.register d) = true := decide_eq_true ⟨htask, htask ▸ hknown⟩
        rw [hresets, if_pos rfl]
        rwa [if_pos htask] at hregister
      · have hresets : Resets taskId r (.register d) = false := decide_eq_false (fun h => htask h.1)
        rw [if_neg htask] at hregister
        rw [hresets, if_neg Bool.false_ne_true]
        exact ⟨n, hregister, rfl⟩
  | startAttempt a now =>
    refine ⟨n, ?_, rfl⟩
    by_cases hknown : a.taskId ∈ r.tasks.keys
    · rw [next_start_known hknown, missedBeats, emit_tasks] at h
      exact (missedBeats_modify r taskId a.taskId (f := TaskEntry.start a now) (fun _ => rfl)).symm.trans h
    · rwa [next_start_unknown hknown] at h
  | completeAttempt taskId' runId outcome failure nowIso =>
    have hkept := missedBeats_completeAttempt r taskId taskId' runId outcome failure nowIso
    exact ⟨n, hkept.symm.trans h, rfl⟩
  | updateState taskId' state =>
    exact ⟨n, (missedBeats_updateState r taskId taskId' state).symm.trans h, rfl⟩
  | heartbeat taskId' now =>
    have hbeat := (missedBeats_heartbeat r taskId taskId' now).symm.trans h
    simp only [Resets, decide_eq_true_eq, eq_comm (a := taskId')]
    exact beaten hbeat
  | heartbeatForRun runId now =>
    have hbeat := (missedBeats_heartbeatForRun r taskId runId now).symm.trans h
    simp only [Resets, decide_eq_true_eq]
    exact beaten hbeat
  | getStalledTasks now =>
    have hswept := (missedBeats_sweep r taskId now).symm.trans h
    obtain ⟨before, hbefore, hn⟩ := Option.map_eq_some_iff.mp hswept
    exact ⟨before, hbefore, hn.symm⟩
  | onRunLifecycleTransition runId toState now nowIso =>
    have hbeat := (missedBeats_transition r taskId runId toState now nowIso).symm.trans h
    simp only [Resets, decide_eq_true_eq]
    exact beaten hbeat

end TaskRegistry

/-- **What the missed beats count.** After every sequence of calls, the health of a task shows the
number of the sweeps that listed it since the last beat for it, or since it was registered. -/
theorem missed_beats_count (maxTasks : Int) (log : Option InMemoryTaskEventLog)
    (calls : List TaskRegistry.TaskCall) (taskId : String) (now : Int) :
    ((run TaskRegistry.next { maxTasks := maxTasks, eventAppender := log } calls).getHealth taskId now).map
        TaskHealthStatus.consecutiveMissedBeats =
      ((run TaskRegistry.next { maxTasks := maxTasks, eventAppender := log } calls).get taskId).map (fun _ =>
        tally (TaskRegistry.Resets taskId) (TaskRegistry.Lists taskId)
          (trail TaskRegistry.next { maxTasks := maxTasks, eventAppender := log } calls)) := by
  rw [TaskRegistry.getHealth, TaskRegistry.get]
  cases hget : (run TaskRegistry.next { maxTasks := maxTasks, eventAppender := log }
      calls).tasks.get? taskId with
  | none => rfl
  | some entry =>
    have hmissed := congrArg (Option.map TaskEntry.consecutiveMissedBeats) hget
    exact congrArg some (run_tally (TaskRegistry.missedBeats_tallies taskId) rfl calls hmissed)

namespace Sample

/-- A task misses two beats on its first run and one on its second, which has not beaten yet. -/
def silent : List TaskRegistry.TaskCall :=
  [.register (task "task"), .startAttempt (attempt "task" "first" 1) 0, .heartbeatForRun "first" 1,
    .getStalledTasks 400000, .getStalledTasks 500000, .completeAttempt "task" "first" .failed none "",
    .startAttempt (attempt "task" "second" 2) 500000, .getStalledTasks 600000, .getStalledTasks 900000]

end Sample

/-- An attempt inherits what the one before it missed. -/
example : ((run TaskRegistry.next {} Sample.silent).getHealth "task" 900000).map
    TaskHealthStatus.consecutiveMissedBeats = some 3 := by decide +kernel

end AgentKernel.Tasks
