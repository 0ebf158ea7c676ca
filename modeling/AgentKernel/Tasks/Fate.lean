import AgentKernel.Tasks.Registry

/-! What may decide the state of a task.

`complete_attempt` sets the state of the task for whatever attempt it ends: for one that a
later attempt has superseded, and for one of a task that was aborted or escalated in the
meantime. So a late notice of an earlier run changes the fate of the task
(`late_completion_moves`), and a run of calls is free of that exactly when none of its
completions comes late (`fate_kept_iff`). -/
namespace AgentKernel.Tasks
open Lib

namespace TaskRegistry
variable {r : TaskRegistry}

/-- The task has an attempt on the run that is not the one it started last. -/
def Superseded (r : TaskRegistry) (taskId runId : String) : Prop :=
  ∃ a ∈ (r.getAttempts taskId).dropLast, a.runId = runId

instance (r : TaskRegistry) (taskId runId : String) : Decidable (r.Superseded taskId runId) :=
  inferInstanceAs (Decidable (∃ a ∈ (r.getAttempts taskId).dropLast, a.runId = runId))

/-- The task was given up, or handed to an operator. -/
def Withdrawn (r : TaskRegistry) (taskId : String) : Prop :=
  r.lifecycleState taskId = some .aborted ∨ r.lifecycleState taskId = some .escalated

/-- A completion of a superseded attempt, or of an attempt of a withdrawn task, leaves the
task in its state. -/
def FateKept (r : TaskRegistry) (call : TaskCall) : Prop :=
  ∀ c, r.completing call = some c → r.Superseded c.taskId c.runId ∨ r.Withdrawn c.taskId →
    (r.next call).lifecycleState c.taskId = r.lifecycleState c.taskId

/-- An attempt that is still under way is completed while its task is not withdrawn, and
before it is superseded unless the task is in the state that the outcome stands for. -/
def Timely (r : TaskRegistry) (call : TaskCall) : Prop :=
  ∀ c, r.completing call = some c → r.Active c.taskId c.runId →
    ¬ r.Withdrawn c.taskId ∧
    (r.Superseded c.taskId c.runId →
      r.lifecycleState c.taskId = some (TaskEntry.stateAfter c.outcome))

/-! ### The state after a completion -/

theorem lifecycleState_completeAttempt (r : TaskRegistry) (taskId runId : String)
    (outcome : TaskOutcome) (failure : Option Value) (nowIso : String) :
    (r.completeAttempt taskId runId outcome failure nowIso).lifecycleState taskId =
      if r.Active taskId runId then some (TaskEntry.stateAfter outcome)
      else r.lifecycleState taskId := by
  unfold completeAttempt
  split
  · rename_i hactive
    obtain ⟨entry, hget, _⟩ := hactive
    unfold lifecycleState finish
    rw [emit_tasks, Dict.get?_modify, if_pos rfl, hget]
    rfl
  · rfl

theorem lifecycleState_heartbeatForRun (r : TaskRegistry) (runId : String) (now : Int) (taskId : String) :
    (r.heartbeatForRun runId now).lifecycleState taskId = r.lifecycleState taskId := by
  unfold heartbeatForRun
  split
  · unfold lifecycleState heartbeat
    rw [Dict.get?_modify]
    split
    · cases r.tasks.get? taskId <;> rfl
    · rfl
  · rfl

/-- A completion puts the task in the state of its outcome if the attempt is under way, and
changes nothing otherwise. -/
theorem lifecycleState_next {call : TaskCall} {c : Completion} (h : r.completing call = some c) :
    (r.next call).lifecycleState c.taskId =
      if r.Active c.taskId c.runId then some (TaskEntry.stateAfter c.outcome)
      else r.lifecycleState c.taskId := by
  cases call with
  | completeAttempt taskId runId outcome failure nowIso =>
    cases h
    exact lifecycleState_completeAttempt r taskId runId outcome failure nowIso
  | onRunLifecycleTransition runId toState now nowIso =>
    rw [next_transition, h, lifecycleState_completeAttempt, lifecycleState_heartbeatForRun]
    simp only [(sameWork_heartbeatForRun r runId now).active]
  | _ => cases h

theorem stateAfter_terminal (outcome : TaskOutcome) :
    TaskEntry.stateAfter outcome ≠ .aborted ∧ TaskEntry.stateAfter outcome ≠ .escalated := by
  cases outcome <;> exact ⟨by decide, by decide⟩

/-- **A completion leaves the fate of its task alone exactly when it is timely.** -/
theorem fateKept_iff (r : TaskRegistry) (call : TaskCall) : r.FateKept call ↔ r.Timely call := by
  constructor
  · intro h c hc hactive
    have hstate : r.Superseded c.taskId c.runId ∨ r.Withdrawn c.taskId →
        r.lifecycleState c.taskId = some (TaskEntry.stateAfter c.outcome) := by
      intro hlate
      rw [← h c hc hlate, lifecycleState_next hc, if_pos hactive]
    refine ⟨fun hwithdrawn => ?_, fun hsuperseded => hstate (.inl hsuperseded)⟩
    have hended := hstate (.inr hwithdrawn)
    obtain ⟨hnotAborted, hnotEscalated⟩ := stateAfter_terminal c.outcome
    rcases hwithdrawn with haborted | hescalated
    · exact hnotAborted (Option.some.inj (hended.symm.trans haborted))
    · exact hnotEscalated (Option.some.inj (hended.symm.trans hescalated))
  · intro h c hc hlate
    rw [lifecycleState_next hc]
    split
    · rename_i hactive
      obtain ⟨hnotWithdrawn, hsame⟩ := h c hc hactive
      rcases hlate with hsuperseded | hwithdrawn
      · exact (hsame hsuperseded).symm
      · exact absurd hwithdrawn hnotWithdrawn
    · rfl

end TaskRegistry

/-- **When a task keeps its fate.** In a run of calls no completion of a superseded attempt,
nor of an attempt of a withdrawn task, moves the task, exactly when every completion in it
is timely. -/
theorem fate_kept_iff (maxTasks : Int) (log : Option InMemoryTaskEventLog)
    (calls : List TaskRegistry.TaskCall) :
    (∀ pre call, pre ++ [call] <+: calls →
      (run TaskRegistry.next { maxTasks := maxTasks, eventAppender := log } pre).FateKept call) ↔
    Along TaskRegistry.next TaskRegistry.Timely { maxTasks := maxTasks, eventAppender := log } calls := by
  rw [← along_iff_forall_prefix]
  exact Along.congr TaskRegistry.fateKept_iff

namespace Sample

/-- A task is restarted while its first run is still under way. -/
def restarted : List TaskRegistry.TaskCall :=
  [.register (task "task"), .startAttempt (attempt "task" "first" 1) 0,
    .updateState "task" .restarting, .startAttempt (attempt "task" "second" 2) 1]

def lateNotice : TaskRegistry.TaskCall := .onRunLifecycleTransition "first" "completed" 2 ""

end Sample

/-- The first run reports after the second has started, and the task counts as completed. -/
theorem late_completion_moves :
    ¬ (run TaskRegistry.next {} Sample.restarted).FateKept Sample.lateNotice := by
  intro h
  have hcompleting : (run TaskRegistry.next {} Sample.restarted).completing Sample.lateNotice =
      some ⟨"task", "first", .completed⟩ := by decide +kernel
  have hsuperseded : (run TaskRegistry.next {} Sample.restarted).Superseded "task" "first" := by
    decide +kernel
  have hbefore : (run TaskRegistry.next {} Sample.restarted).lifecycleState "task" = some .running := by
    decide +kernel
  have hafter : ((run TaskRegistry.next {} Sample.restarted).next Sample.lateNotice).lifecycleState
      "task" = some .completed := by decide +kernel
  have hkept := h _ hcompleting (.inl hsuperseded)
  rw [hbefore, hafter] at hkept
  cases hkept

end AgentKernel.Tasks
