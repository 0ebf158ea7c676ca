import AgentKernel.Contracts

/-! Tasks: what is registered, what is attempted, and the events that record it.

A task keeps its id over every retry, and each retry is an attempt that one run executes.
The events are what the registry hands to its appender; `InMemoryTaskEventLog` keeps the
newest of them. -/
namespace AgentKernel.Tasks
open Lib

/-! ### Tasks and attempts -/

inductive TaskLifecycleState where
  | pending
  | running
  | completed
  | failed
  | restarting
  | reflecting
  | escalated
  | aborted
  deriving DecidableEq, Repr

inductive ExhaustedPolicy where
  | reflect
  | escalate
  | abort
  deriving DecidableEq, Repr

structure TaskRestartPolicy where
  maxAttempts : Int := 3
  backoffBaseMs : Int := 2000
  maxBackoffMs : Int := 30000
  onExhausted : ExhaustedPolicy := .reflect
  heartbeatTimeoutMs : Int := 300000
  deriving DecidableEq, Repr

inductive TaskKind where
  | root
  | planStep
  | parallelBranch
  | speculativeCandidate
  deriving DecidableEq, Repr

structure TaskDescriptor where
  taskId : String
  sessionId : String
  taskKind : TaskKind
  goalDescription : String
  parentTaskId : Option String := none
  dependencyTaskIds : List String := []
  restartPolicy : TaskRestartPolicy := {}
  metadata : Payload := []

/-- How an attempt ends. -/
inductive TaskOutcome where
  | completed
  | failed
  | cancelled
  deriving DecidableEq, Repr

structure TaskAttempt where
  attemptId : String
  taskId : String
  runId : String
  attemptSeq : Int
  startedAt : String
  completedAt : Option String := none
  outcome : Option TaskOutcome := none
  failure : Option Value := none
  reflectionOutput : Option String := none

structure TaskHealthStatus where
  taskId : String
  lifecycleState : TaskLifecycleState
  currentRunId : Option String
  attemptSeq : Nat
  maxAttempts : Int
  lastHeartbeatMs : Option Int := none
  consecutiveMissedBeats : Nat := 0
  isStalled : Bool := false
  deriving DecidableEq, Repr

namespace TaskAttempt

/-- `a.run_id == run_id and a.outcome is None`. -/
def ActiveOn (runId : String) (a : TaskAttempt) : Prop := a.runId = runId ∧ a.outcome = none

instance (runId : String) (a : TaskAttempt) : Decidable (a.ActiveOn runId) :=
  inferInstanceAs (Decidable (_ ∧ _))

def complete (outcome : TaskOutcome) (failure : Option Value) (nowIso : String) (a : TaskAttempt) :
    TaskAttempt :=
  { a with
    outcome := some outcome
    completedAt := some nowIso
    failure := if outcome ≠ .completed then failure else none }

end TaskAttempt

/-! ### Events -/

/-- The restart policy as the payload of `task.registered` has it. -/
structure RestartPolicyPayload where
  maxAttempts : Int
  backoffBaseMs : Int
  onExhausted : ExhaustedPolicy
  heartbeatTimeoutMs : Int

structure RegisteredPayload where
  taskId : String
  sessionId : String
  taskKind : TaskKind
  goalDescription : String
  parentTaskId : Option String
  dependencyTaskIds : List String
  metadata : Payload
  restartPolicy : RestartPolicyPayload

structure AttemptStartedPayload where
  attemptId : String
  taskId : String
  runId : String
  attemptSeq : Int
  startedAt : String

/-- The states that have an event of their own. -/
inductive StateEvent where
  | restarting
  | reflecting
  | completed
  | escalated
  | aborted
  deriving DecidableEq, Repr

/-- `state_event_map`. -/
def stateEvent : TaskLifecycleState → Option StateEvent
  | .restarting => some .restarting
  | .reflecting => some .reflecting
  | .completed => some .completed
  | .escalated => some .escalated
  | .aborted => some .aborted
  | .pending | .running | .failed => none

/-- `state_map` of the replay. -/
def StateEvent.state : StateEvent → TaskLifecycleState
  | .restarting => .restarting
  | .reflecting => .reflecting
  | .completed => .completed
  | .escalated => .escalated
  | .aborted => .aborted

/-- A state is replayed from its own event. -/
theorem state_of_stateEvent {state : TaskLifecycleState} {event : StateEvent}
    (h : stateEvent state = some event) : event.state = state := by
  cases state <;> simp only [stateEvent, reduceCtorEq, Option.some.injEq] at h <;> subst h <;> rfl

/-- An event with its payload. -/
inductive TaskEvent where
  | registered (payload : RegisteredPayload)
  | attemptStarted (payload : AttemptStartedPayload)
  | attemptCompleted (taskId runId : String) (outcome : TaskOutcome)
  | attemptFailed (taskId runId : String) (outcome : TaskOutcome)
  | stateSet (event : StateEvent) (taskId : String) (state : TaskLifecycleState)

def registeredPayload (d : TaskDescriptor) : RegisteredPayload where
  taskId := d.taskId
  sessionId := d.sessionId
  taskKind := d.taskKind
  goalDescription := d.goalDescription
  parentTaskId := d.parentTaskId
  dependencyTaskIds := d.dependencyTaskIds
  metadata := d.metadata
  restartPolicy :=
    { maxAttempts := d.restartPolicy.maxAttempts
      backoffBaseMs := d.restartPolicy.backoffBaseMs
      onExhausted := d.restartPolicy.onExhausted
      heartbeatTimeoutMs := d.restartPolicy.heartbeatTimeoutMs }

def attemptStartedPayload (a : TaskAttempt) : AttemptStartedPayload where
  attemptId := a.attemptId
  taskId := a.taskId
  runId := a.runId
  attemptSeq := a.attemptSeq
  startedAt := a.startedAt

/-- The event of an attempt that ends. -/
def attemptEnded (taskId runId : String) (outcome : TaskOutcome) : TaskEvent :=
  if outcome = .completed then .attemptCompleted taskId runId outcome
  else .attemptFailed taskId runId outcome

/-! ### The event log -/

structure InMemoryTaskEventLog where
  events : List TaskEvent := []
  maxEvents : Int := 100000

namespace InMemoryTaskEventLog

/-- `append_task_event`. A full log drops its oldest quarter first. -/
def appendTaskEvent (log : InMemoryTaskEventLog) (event : TaskEvent) : InMemoryTaskEventLog :=
  let kept :=
    if (log.events.length : Int) ≥ log.maxEvents then
      log.events.drop (max 1 (log.maxEvents / 4)).toNat
    else log.events
  { log with events := kept ++ [event] }

theorem events_appendTaskEvent_of_lt {log : InMemoryTaskEventLog}
    (h : (log.events.length : Int) < log.maxEvents) (event : TaskEvent) :
    (log.appendTaskEvent event).events = log.events ++ [event] := by
  have hfits : ¬ (log.events.length : Int) ≥ log.maxEvents := by omega
  simp only [appendTaskEvent, if_neg hfits]

end InMemoryTaskEventLog
end AgentKernel.Tasks
