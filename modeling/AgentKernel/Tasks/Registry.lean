import AgentKernel.Lib.Dict
import AgentKernel.Lib.Run
import AgentKernel.Tasks.Contracts

/-! The task registry and the callbacks of its watchdog.

Tasks stand in the order they were registered. Two indexes are kept beside them: the
tasks of each session, and the task each run works for. Every mutator hands its event to
the appender, if there is one, and a full registry makes room by evicting the older half
of the tasks that are done. A call that raises leaves the registry as it was. -/
namespace AgentKernel.Tasks
open Lib

/-! ### One task -/

/-- `_TaskEntry`. -/
structure TaskEntry where
  descriptor : TaskDescriptor
  lifecycleState : TaskLifecycleState := .pending
  attempts : List TaskAttempt := []
  lastHeartbeatMs : Option Int := none
  consecutiveMissedBeats : Nat := 0

/-- The states of a task that may be evicted. -/
def TaskLifecycleState.terminal : TaskLifecycleState → Bool
  | .completed | .aborted | .escalated => true
  | _ => false

namespace TaskEntry

/-- An attempt on the run has no outcome yet. -/
def ActiveOn (runId : String) (entry : TaskEntry) : Prop := ∃ a ∈ entry.attempts, a.ActiveOn runId

instance (runId : String) (entry : TaskEntry) : Decidable (entry.ActiveOn runId) :=
  inferInstanceAs (Decidable (∃ a ∈ entry.attempts, a.ActiveOn runId))

def start (a : TaskAttempt) (now : Int) (entry : TaskEntry) : TaskEntry :=
  { entry with
    attempts := entry.attempts ++ [a]
    lifecycleState := .running
    lastHeartbeatMs := some now }

/-- The state an outcome puts a task in. -/
def stateAfter (outcome : TaskOutcome) : TaskLifecycleState :=
  if outcome = .completed then .completed else .failed

def complete (runId : String) (outcome : TaskOutcome) (failure : Option Value) (nowIso : String)
    (entry : TaskEntry) : TaskEntry :=
  { entry with
    attempts := entry.attempts.map (fun a =>
      if a.ActiveOn runId then a.complete outcome failure nowIso else a)
    lifecycleState := stateAfter outcome }

def setState (state : TaskLifecycleState) (entry : TaskEntry) : TaskEntry :=
  { entry with lifecycleState := state }

/-- A beat is later than the one before it, whatever the clock says. -/
def beat (now : Int) (entry : TaskEntry) : TaskEntry :=
  let now := match entry.lastHeartbeatMs with
    | some last => if now ≤ last then last + 1 else now
    | none => now
  { entry with lastHeartbeatMs := some now, consecutiveMissedBeats := 0 }

/-- The attempt started last. -/
def currentAttempt (entry : TaskEntry) : Option TaskAttempt := entry.attempts.getLast?

def currentRunId (entry : TaskEntry) : Option String :=
  (entry.currentAttempt.filter (fun a => a.outcome = none)).map TaskAttempt.runId

/-- Running for longer than its policy allows without a beat. -/
def stalled (now : Int) (entry : TaskEntry) : Bool :=
  (entry.lifecycleState = .running ∨ entry.lifecycleState = .restarting) ∧
    entry.lastHeartbeatMs.any
      (fun last => now - last > entry.descriptor.restartPolicy.heartbeatTimeoutMs)

def health (taskId : String) (isStalled : Bool) (entry : TaskEntry) : TaskHealthStatus where
  taskId := taskId
  lifecycleState := entry.lifecycleState
  currentRunId := entry.currentRunId
  attemptSeq := entry.attempts.length
  maxAttempts := entry.descriptor.restartPolicy.maxAttempts
  lastHeartbeatMs := entry.lastHeartbeatMs
  consecutiveMissedBeats := entry.consecutiveMissedBeats
  isStalled := isStalled

/-- A sweep counts a beat missed by a stalled task. -/
def sweep (now : Int) (entry : TaskEntry) : TaskEntry :=
  if entry.stalled now then
    { entry with consecutiveMissedBeats := entry.consecutiveMissedBeats + 1 }
  else entry

end TaskEntry

/-! ### The registry -/

structure TaskRegistry where
  tasks : Dict String TaskEntry := Dict.empty
  sessionIndex : Dict String (List String) := Dict.empty
  runIndex : Dict String String := Dict.empty
  maxTasks : Int := 10000
  eventAppender : Option InMemoryTaskEventLog := none

def alreadyRegistered (taskId : String) : PyError :=
  ⟨.valueError, "Task '" ++ taskId ++
    "' is already registered. Use a different task_id or call update_state() instead."⟩

def unknownTask (taskId : String) : PyError := ⟨.other "KeyError", Text.quoted taskId⟩

namespace TaskRegistry

/-- `_emit`. -/
def emit (r : TaskRegistry) (event : TaskEvent) : TaskRegistry :=
  { r with eventAppender := r.eventAppender.map (·.appendTaskEvent event) }

/-- The task ids a session lists. -/
def sessionTasks (r : TaskRegistry) (sessionId : String) : List String :=
  (r.sessionIndex.get? sessionId).getD []

/-! ### Eviction -/

/-- The tasks `_evict_if_needed` takes out. -/
def toEvict (r : TaskRegistry) : List String :=
  if (r.tasks.size : Int) < r.maxTasks then []
  else
    let terminal := (r.tasks.entries.filter (fun e => e.2.lifecycleState.terminal)).map Prod.fst
    terminal.take (max 1 (terminal.length / 2))

def evict (r : TaskRegistry) (taskId : String) : TaskRegistry :=
  match r.tasks.get? taskId with
  | none => r
  | some entry =>
    { r with
      tasks := r.tasks.erase taskId
      sessionIndex := r.sessionIndex.modify entry.descriptor.sessionId (·.filter (· ≠ taskId)) }

def evictIfNeeded (r : TaskRegistry) : TaskRegistry := run evict r r.toEvict

/-! ### Mutators -/

/-- The registry with one more task. -/
def insert (r : TaskRegistry) (d : TaskDescriptor) : TaskRegistry :=
  { r with
    tasks := r.tasks.set d.taskId { descriptor := d }
    sessionIndex := r.sessionIndex.set d.sessionId (r.sessionTasks d.sessionId ++ [d.taskId]) }

def register (r : TaskRegistry) (d : TaskDescriptor) : Except PyError TaskRegistry :=
  if d.taskId ∈ r.tasks.keys then .error (alreadyRegistered d.taskId)
  else .ok ((r.evictIfNeeded.insert d).emit (.registered (registeredPayload d)))

/-- The registry with one more attempt. -/
def begin (r : TaskRegistry) (a : TaskAttempt) (now : Int) : TaskRegistry :=
  { r with
    tasks := r.tasks.modify a.taskId (TaskEntry.start a now)
    runIndex := r.runIndex.set a.runId a.taskId }

def startAttempt (r : TaskRegistry) (a : TaskAttempt) (now : Int) : Except PyError TaskRegistry :=
  if a.taskId ∈ r.tasks.keys then
    .ok ((r.begin a now).emit (.attemptStarted (attemptStartedPayload a)))
  else .error (unknownTask a.taskId)

/-- The task has an attempt on the run that has no outcome yet. -/
def Active (r : TaskRegistry) (taskId runId : String) : Prop :=
  ∃ entry, r.tasks.get? taskId = some entry ∧ entry.ActiveOn runId

instance (r : TaskRegistry) (taskId runId : String) : Decidable (r.Active taskId runId) :=
  match h : r.tasks.get? taskId with
  | none => .isFalse (fun ⟨_, hget, _⟩ => nomatch h.symm.trans hget)
  | some entry => decidable_of_iff (entry.ActiveOn runId) (by simp [Active, h])

/-- The registry with the attempt ended. -/
def finish (r : TaskRegistry) (taskId runId : String) (outcome : TaskOutcome)
    (failure : Option Value) (nowIso : String) : TaskRegistry :=
  { r with
    tasks := r.tasks.modify taskId (TaskEntry.complete runId outcome failure nowIso)
    runIndex := r.runIndex.erase runId }

def completeAttempt (r : TaskRegistry) (taskId runId : String) (outcome : TaskOutcome)
    (failure : Option Value) (nowIso : String) : TaskRegistry :=
  if r.Active taskId runId then
    (r.finish taskId runId outcome failure nowIso).emit (attemptEnded taskId runId outcome)
  else r

def updateState (r : TaskRegistry) (taskId : String) (state : TaskLifecycleState) : TaskRegistry :=
  if taskId ∈ r.tasks.keys then
    let set := { r with tasks := r.tasks.modify taskId (TaskEntry.setState state) }
    match stateEvent state with
    | some event => set.emit (.stateSet event taskId state)
    | none => set
  else r

def heartbeat (r : TaskRegistry) (taskId : String) (now : Int) : TaskRegistry :=
  { r with tasks := r.tasks.modify taskId (TaskEntry.beat now) }

def heartbeatForRun (r : TaskRegistry) (runId : String) (now : Int) : TaskRegistry :=
  match r.runIndex.get? runId with
  | some taskId => r.heartbeat taskId now
  | none => r

/-! ### Queries -/

def get (r : TaskRegistry) (taskId : String) : Option TaskDescriptor :=
  (r.tasks.get? taskId).map TaskEntry.descriptor

def getHealth (r : TaskRegistry) (taskId : String) (now : Int) : Option TaskHealthStatus :=
  (r.tasks.get? taskId).map (fun entry => entry.health taskId (entry.stalled now))

def lifecycleState (r : TaskRegistry) (taskId : String) : Option TaskLifecycleState :=
  (r.tasks.get? taskId).map TaskEntry.lifecycleState

def getAttempts (r : TaskRegistry) (taskId : String) : List TaskAttempt :=
  ((r.tasks.get? taskId).map TaskEntry.attempts).getD []

def listSessionTasks (r : TaskRegistry) (sessionId : String) : List TaskDescriptor :=
  (r.sessionTasks sessionId).filterMap r.get

def getTaskIdForRun (r : TaskRegistry) (runId : String) : Option String := r.runIndex.get? runId

/-- A query that counts missed beats. -/
def getStalledTasks (r : TaskRegistry) (now : Int) : TaskRegistry × List TaskHealthStatus :=
  let swept := r.tasks.map (TaskEntry.sweep now)
  ({ r with tasks := swept },
    (swept.entries.filter (fun e => e.2.stalled now)).map (fun e => e.2.health e.1 true))

/-! ### The watchdog -/

/-- The outcome of the attempt whose run ended in the state, if the state ends a run for
the watchdog. -/
def outcomeOf (toState : String) : Option TaskOutcome :=
  if toState = "completed" then some .completed
  else if toState = "aborted" then some .failed
  else none

/-- The task whose attempt the callback completes. An empty task id counts as none. -/
def taskToComplete (r : TaskRegistry) (runId : String) : Option String :=
  (r.getTaskIdForRun runId).filter (· ≠ "")

/-- `on_run_lifecycle_transition`. -/
def onRunLifecycleTransition (r : TaskRegistry) (runId toState : String) (now : Int)
    (nowIso : String) : TaskRegistry :=
  let r := r.heartbeatForRun runId now
  match outcomeOf toState, r.taskToComplete runId with
  | some outcome, some taskId => r.completeAttempt taskId runId outcome none nowIso
  | _, _ => r

/-- What a registry is asked. The other callbacks of the watchdog are heartbeats for a run,
and its sweep asks for the stalled tasks. -/
inductive TaskCall where
  | register (d : TaskDescriptor)
  | startAttempt (a : TaskAttempt) (now : Int)
  | completeAttempt (taskId runId : String) (outcome : TaskOutcome) (failure : Option Value)
    (nowIso : String)
  | updateState (taskId : String) (state : TaskLifecycleState)
  | heartbeat (taskId : String) (now : Int)
  | heartbeatForRun (runId : String) (now : Int)
  | getStalledTasks (now : Int)
  | onRunLifecycleTransition (runId toState : String) (now : Int) (nowIso : String)

def perform (r : TaskRegistry) : TaskCall → Except PyError TaskRegistry
  | .register d => r.register d
  | .startAttempt a now => r.startAttempt a now
  | .completeAttempt taskId runId outcome failure nowIso =>
    .ok (r.completeAttempt taskId runId outcome failure nowIso)
  | .updateState taskId state => .ok (r.updateState taskId state)
  | .heartbeat taskId now => .ok (r.heartbeat taskId now)
  | .heartbeatForRun runId now => .ok (r.heartbeatForRun runId now)
  | .getStalledTasks now => .ok (r.getStalledTasks now).1
  | .onRunLifecycleTransition runId toState now nowIso =>
    .ok (r.onRunLifecycleTransition runId toState now nowIso)

/-- The registry after a call. -/
def next (r : TaskRegistry) (call : TaskCall) : TaskRegistry :=
  match r.perform call with
  | .ok r' => r'
  | .error _ => r

/-- The attempt a call is about to complete. -/
structure Completion where
  taskId : String
  runId : String
  outcome : TaskOutcome
  deriving DecidableEq

/-- The completion a call makes, if it makes one. -/
def completing (r : TaskRegistry) : TaskCall → Option Completion
  | .completeAttempt taskId runId outcome _ _ => some ⟨taskId, runId, outcome⟩
  | .onRunLifecycleTransition runId toState _ _ =>
    match outcomeOf toState, r.taskToComplete runId with
    | some outcome, some taskId => some ⟨taskId, runId, outcome⟩
    | _, _ => none
  | _ => none

/-! ### What the calls do -/

section Frames
variable (r : TaskRegistry)

@[simp] theorem emit_tasks (event : TaskEvent) : (r.emit event).tasks = r.tasks := rfl

@[simp] theorem heartbeatForRun_runIndex (runId : String) (now : Int) :
    (r.heartbeatForRun runId now).runIndex = r.runIndex := by
  unfold heartbeatForRun
  split <;> rfl

end Frames

theorem next_register_known {r : TaskRegistry} {d : TaskDescriptor} (h : d.taskId ∈ r.tasks.keys) :
    r.next (.register d) = r := by
  simp only [next, perform, register, if_pos h]

theorem next_register_new {r : TaskRegistry} {d : TaskDescriptor} (h : d.taskId ∉ r.tasks.keys) :
    r.next (.register d) =
      (r.evictIfNeeded.insert d).emit (.registered (registeredPayload d)) := by
  simp only [next, perform, register, if_neg h]

theorem next_start_known {r : TaskRegistry} {a : TaskAttempt} {now : Int} (h : a.taskId ∈ r.tasks.keys) :
    r.next (.startAttempt a now) = (r.begin a now).emit (.attemptStarted (attemptStartedPayload a)) := by
  simp only [next, perform, startAttempt, if_pos h]

theorem next_start_unknown {r : TaskRegistry} {a : TaskAttempt} {now : Int} (h : a.taskId ∉ r.tasks.keys) :
    r.next (.startAttempt a now) = r := by
  simp only [next, perform, startAttempt, if_neg h]

/-- The callback is a heartbeat, after which it makes the completion it is about to. -/
theorem next_transition (r : TaskRegistry) (runId toState : String) (now : Int) (nowIso : String) :
    r.next (.onRunLifecycleTransition runId toState now nowIso) =
      match r.completing (.onRunLifecycleTransition runId toState now nowIso) with
      | some c => (r.heartbeatForRun runId now).completeAttempt c.taskId c.runId c.outcome none nowIso
      | none => r.heartbeatForRun runId now := by
  have hindex : (r.heartbeatForRun runId now).taskToComplete runId = r.taskToComplete runId := by
    rw [taskToComplete, getTaskIdForRun, heartbeatForRun_runIndex]
    rfl
  simp only [next, perform, onRunLifecycleTransition, completing, hindex]
  cases outcomeOf toState with
  | none => rfl
  | some outcome => cases r.taskToComplete runId <;> rfl

/-! ### Calls that leave the work as it is -/

/-- What the indexes are about is the same. -/
structure SameWork (r r' : TaskRegistry) : Prop where
  sessions : r'.sessionIndex = r.sessionIndex
  runs : r'.runIndex = r.runIndex
  entries : ∀ taskId, (r'.tasks.get? taskId).map (fun e => (e.descriptor, e.attempts)) =
    (r.tasks.get? taskId).map (fun e => (e.descriptor, e.attempts))

theorem SameWork.refl (r : TaskRegistry) : SameWork r r := ⟨rfl, rfl, fun _ => rfl⟩

theorem sameWork_modify (r : TaskRegistry) (taskId : String) {f : TaskEntry → TaskEntry}
    (h : ∀ entry, (f entry).descriptor = entry.descriptor ∧ (f entry).attempts = entry.attempts) :
    SameWork r { r with tasks := r.tasks.modify taskId f } := by
  refine ⟨rfl, rfl, fun taskId' => ?_⟩
  rw [Dict.get?_modify]
  split
  · cases r.tasks.get? taskId' with
    | none => rfl
    | some entry => simp [(h entry).1, (h entry).2]
  · rfl

theorem sameWork_updateState (r : TaskRegistry) (taskId : String) (state : TaskLifecycleState) :
    SameWork r (r.updateState taskId state) := by
  have h := sameWork_modify r taskId (f := TaskEntry.setState state) (fun _ => ⟨rfl, rfl⟩)
  unfold updateState
  split
  · cases stateEvent state with
    | none => exact h
    | some event => exact ⟨h.sessions, h.runs, h.entries⟩
  · exact .refl r

theorem sameWork_heartbeat (r : TaskRegistry) (taskId : String) (now : Int) :
    SameWork r (r.heartbeat taskId now) :=
  sameWork_modify r taskId (fun _ => ⟨rfl, rfl⟩)

theorem sameWork_heartbeatForRun (r : TaskRegistry) (runId : String) (now : Int) :
    SameWork r (r.heartbeatForRun runId now) := by
  unfold heartbeatForRun
  split
  · exact sameWork_heartbeat r _ now
  · exact .refl r

theorem sameWork_getStalledTasks (r : TaskRegistry) (now : Int) :
    SameWork r (r.getStalledTasks now).1 := by
  refine ⟨rfl, rfl, fun taskId => ?_⟩
  simp only [getStalledTasks, Dict.get?_map]
  cases r.tasks.get? taskId with
  | none => rfl
  | some entry =>
    simp only [Option.map_some, TaskEntry.sweep]
    split <;> rfl

theorem SameWork.active {r r' : TaskRegistry} (h : SameWork r r') (taskId runId : String) :
    r'.Active taskId runId ↔ r.Active taskId runId := by
  have hentry := h.entries taskId
  unfold Active
  cases hold : r.tasks.get? taskId with
  | none =>
    rw [hold, Option.map_none, Option.map_eq_none_iff] at hentry
    simp [hentry]
  | some entry =>
    rw [hold, Option.map_some, Option.map_eq_some_iff] at hentry
    obtain ⟨entry', hnew, heq⟩ := hentry
    have hattempts : entry'.attempts = entry.attempts := congrArg Prod.snd heq
    simp [hnew, TaskEntry.ActiveOn, hattempts]

theorem SameWork.get {r r' : TaskRegistry} (h : SameWork r r') (taskId : String) :
    r'.get taskId = r.get taskId := by
  have hentry := congrArg (Option.map Prod.fst) (h.entries taskId)
  rw [Option.map_map, Option.map_map] at hentry
  exact hentry

end TaskRegistry

namespace Sample

def task (taskId : String) : TaskDescriptor :=
  { taskId := taskId
    sessionId := "session"
    taskKind := .root
    goalDescription := "goal" }

def attempt (taskId runId : String) (attemptSeq : Int) : TaskAttempt :=
  { attemptId := "attempt:" ++ runId
    taskId := taskId
    runId := runId
    attemptSeq := attemptSeq
    startedAt := "" }

end Sample
end AgentKernel.Tasks
