import AgentKernel.Facade.Memory
import AgentKernel.Facade.PolicyVersions
import AgentKernel.Turns.Engine

/-! The mutations of the facade, one segment at a time.

A mutation is a coroutine: it runs up to the next call it awaits, and goes on with what the
call answered. `Mutation.start` is its first segment and `Await.resume` every later one; a
segment ends in a call of the workflow gateway, in an append to the event log, or in the end
of the mutation. Two of the mutations go through the guard of the facade, which turns them
away while it is draining. -/
namespace AgentKernel.Facade
open Lib

/-! ### Mutations and calls -/

structure CancelRunRequest where
  runId : String
  reason : String
  causedBy : Option String := none
  deriving DecidableEq, Repr

/-- A mutation and its arguments. The handler of a turn is called by the gateway; what it
does with the facade are mutations of their own. -/
inductive Mutation where
  | startRun (request : StartRunRequest) (contextRef : Option String)
  | signalRun (request : SignalRunRequest)
  | cancelRun (request : CancelRunRequest)
  | spawnChildRun (request : SpawnChildRunRequest) (contextRef : Option String)
  | openStage (stageId runId : String) (branchId : Option String)
  | markStageState (runId stageId : String) (newState : TraceStageState) (failureCode : Option String)
  | openBranch (request : OpenBranchRequest)
  | markBranchState (request : BranchStateUpdateRequest)
  | openHumanGate (request : HumanGateRequest)
  | submitApproval (request : ApprovalRequest)
  | executeTurn (runId : String) (action : Action) (idempotencyKey : String)

/-- What is forwarded to the workflow gateway. -/
inductive GatewayCall where
  | startWorkflow (request : StartRunRequest) (contextRef : Option String)
  | signalWorkflow (runId : String) (request : SignalRunRequest)
  | cancelWorkflow (runId reason : String)
  | startChildWorkflow (parentRunId : String) (request : SpawnChildRunRequest)
      (contextRef : Option String)
  | queryProjection (runId : String)
  | executeTurn (runId : String) (action : Action) (idempotencyKey : String)

/-- The call a mutation waits for, and what it needs to go on. -/
inductive Await where
  | startWorkflow (request : StartRunRequest) (contextRef bindingRef : Option String)
  | signalRun (request : SignalRunRequest)
  | cancelSignal (request : CancelRunRequest)
  | cancelWorkflow (request : CancelRunRequest)
  | parentQuery (request : SpawnChildRunRequest) (contextRef : Option String)
  | startChild (request : SpawnChildRunRequest) (contextRef : Option String)
  | childSignal (parentRunId childRunId : String)
  | childQuery (childRunId : String)
  | notify (n : Notification) (event : Option TraceEvent)
  | turn (runId : String) (action : Action) (idempotencyKey : String)

/-- The signal that precedes a cancellation. -/
def CancelRunRequest.signal (request : CancelRunRequest) : SignalRunRequest :=
  { runId := request.runId
    signalType := "cancel_requested"
    signalPayload := some (("reason", .str request.reason) ::
      buildSignalObservability "cancel" request.runId request.causedBy)
    causedBy := request.causedBy }

def Await.call : Await → GatewayCall
  | startWorkflow request contextRef _ => .startWorkflow request contextRef
  | signalRun request => .signalWorkflow request.runId request
  | cancelSignal request => .signalWorkflow request.runId request.signal
  | cancelWorkflow request => .cancelWorkflow request.runId request.reason
  | parentQuery request _ => .queryProjection request.parentRunId
  | startChild request contextRef => .startChildWorkflow request.parentRunId request contextRef
  | childSignal parentRunId childRunId => .signalWorkflow parentRunId
      (Notification.spawnChildRun parentRunId childRunId).request
  | childQuery childRunId => .queryProjection childRunId
  | notify n _ => .signalWorkflow n.runId n.request
  | turn runId action idempotencyKey => .executeTurn runId action idempotencyKey

/-! ### Segments -/

/-- What a mutation returns. -/
inductive Response where
  | nothing
  | started (runId temporalWorkflowId : String) (lifecycleState : RunLifecycleState)
  | spawned (childRunId : String) (lifecycleState : RunLifecycleState)
  | turn (result : Option Turns.TurnResult)

/-- How a mutation ends. -/
inductive Outcome where
  | returned (response : Response)
  | raised (e : PyError)
  | cancelled

/-- What an awaited call answers; each mutation reads of it what it asked for. -/
structure Answer where
  workflowId : Option String := none
  runId : Option String := none
  projection : Option RunProjection := none
  turn : Option Turns.TurnResult := none

/-- What an awaited call throws: an exception, or the cancellation of the task that waits. -/
inductive Failure where
  | raised (e : PyError)
  | cancelled

def Failure.outcome : Failure → Outcome
  | raised e => .raised e
  | cancelled => .cancelled

/-- The context adapter, as it answers at the moment. -/
structure ContextAdapter where
  bindContext : Value → Option String → Except PyError String
  bindRunContext : String → String → Except PyError Unit
  resolveRunContext : String → Except PyError (Option String)

/-- What a segment finds around it. -/
structure Surroundings where
  stamp : Stamp := {}
  contextAdapter : Option ContextAdapter := none
  hasEventLog : Bool := true

/-- What a segment ends in. -/
inductive Segment where
  | forwards (a : Await)
  | appends (commit : ActionCommit)
  | ends (outcome : Outcome)

/-- What a segment that fails raises. -/
def Segment.fails (failure : Failure) : Segment := .ends failure.outcome

/-- What is said of a stage or a branch that is not there. -/
def Notification.notFound : Notification → PyError
  | markStageState runId stageId _ _ => ⟨.other "KeyError",
      "Stage " ++ Text.quoted stageId ++ " not found for run " ++ Text.quoted runId ++ "."⟩
  | markBranchState request => ⟨.other "KeyError",
      "Branch " ++ Text.quoted request.branchId ++ " not found for run " ++
        Text.quoted request.runId ++ "."⟩
  | _ => ⟨.other "KeyError", ""⟩

namespace FacadeMemory

/-- How an operation finds the record of its run once the run is tracked. -/
def performed (m : FacadeMemory) (n : Notification) (now : String) : Performed :=
  ((m.touchRun n.runId).of n.runId).perform now n

/-- The segment of an operation on a trace up to its signal. -/
def notify (m : FacadeMemory) (env : Surroundings) (n : Notification) : FacadeMemory × Segment :=
  (m.operate n env.stamp.now,
   match m.performed n env.stamp.now with
   | .raised => .ends (.raised n.notFound)
   | .dropped => .ends (.returned .nothing)
   | .goesOn _ => .forwards (.notify n (n.traceEvent env.stamp.now)))

end FacadeMemory

/-- The context a child is started in: the parent's, unless it names one. -/
def childContext (env : Surroundings) (request : SpawnChildRunRequest) (contextRef : Option String) :
    Except PyError (Option String) :=
  match env.contextAdapter, contextRef with
  | some adapter, none => adapter.resolveRunContext request.parentRunId
  | _, contextRef => .ok contextRef

/-- The first segment; for a guarded mutation, what is inside the guard. -/
def Mutation.start (m : FacadeMemory) (env : Surroundings) : Mutation → FacadeMemory × Segment
  | startRun request contextRef =>
    match env.contextAdapter with
    | none => (m, .forwards (.startWorkflow request contextRef none))
    | some adapter =>
      match adapter.bindContext request.sessionId contextRef with
      | .error e => (m, .ends (.raised e))
      | .ok bindingRef => (m, .forwards (.startWorkflow request (some bindingRef) (some bindingRef)))
  | signalRun request => (m, .forwards (.signalRun request))
  | cancelRun request => (m, .forwards (.cancelSignal request))
  | spawnChildRun request contextRef =>
    match childContext env request contextRef with
    | .error e => (m, .ends (.raised e))
    | .ok contextRef =>
      if request.inheritPolicyVersions then (m, .forwards (.parentQuery request contextRef))
      else (m, .forwards (.startChild request contextRef))
  | openStage stageId runId branchId => m.notify env (.openStage stageId runId branchId)
  | markStageState runId stageId newState failureCode =>
    m.notify env (.markStageState runId stageId newState failureCode)
  | openBranch request => m.notify env (.openBranch request)
  | markBranchState request => m.notify env (.markBranchState request)
  | openHumanGate request => m.notify env (.openHumanGate request)
  | submitApproval request => m.notify env (.submitApproval request)
  | executeTurn runId action idempotencyKey => (m, .forwards (.turn runId action idempotencyKey))

/-- `_is_expected_cancel_race_error`. -/
def isExpectedCancelRaceError (e : PyError) : Bool :=
  ["not found", "already completed", "not running", "closed"].any
    (fun token => Text.contains (Text.lower e.message) token)

/-- The run a gateway says it started; a run without an id goes by its workflow's. -/
def Answer.startedRun (answer : Answer) : String :=
  (Text.orElse answer.runId none).getD (answer.workflowId.getD "")

/-- What the query of the parent gives to inherit from. -/
def Answer.parent (answer : Answer) : Except PyError RunProjection :=
  match answer.projection with
  | some p => .ok p
  | none => .error ⟨.other "AttributeError", ""⟩

/-- A run was started: its context is bound to it. -/
def bindStarted (env : Surroundings) (runId : String) (bindingRef : Option String) : Except PyError Unit :=
  match env.contextAdapter, bindingRef with
  | some adapter, some bindingRef => adapter.bindRunContext runId bindingRef
  | _, _ => .ok ()

/-- The segment after a call was answered. -/
def Await.resume (m : FacadeMemory) (env : Surroundings) (a : Await) (reply : Except Failure Answer) :
    FacadeMemory × Segment :=
  match a, reply with
  | startWorkflow _ _ bindingRef, .ok answer =>
    (m.startRun answer.startedRun env.stamp.now,
     match bindStarted env answer.startedRun bindingRef with
     | .error e => .ends (.raised e)
     | .ok _ => .ends (.returned (.started answer.startedRun (answer.workflowId.getD "") .created)))
  | cancelSignal request, .ok _ => (m, .forwards (.cancelWorkflow request))
  | cancelWorkflow _, .error (.raised e) =>
    if isExpectedCancelRaceError e then (m, .ends (.returned .nothing)) else (m, .ends (.raised e))
  | parentQuery request contextRef, .ok answer =>
    (m, .forwards (.startChild (inheritVersions answer.parent request) contextRef))
  -- What goes wrong with the inheritance is logged, and the child starts without it.
  | parentQuery request contextRef, .error (.raised e) =>
    (m, .forwards (.startChild (inheritVersions (.error e) request) contextRef))
  | startChild request _, .ok answer =>
    (m.spawnChildRun request.parentRunId answer.startedRun request.childKind env.stamp.now,
     .forwards (.childSignal request.parentRunId answer.startedRun))
  | childSignal _ childRunId, .ok _ => (m, .forwards (.childQuery childRunId))
  | childQuery childRunId, .ok answer =>
    (m, .ends (.returned (.spawned childRunId
      ((answer.projection.map RunProjection.lifecycleState).getD .created))))
  | childQuery childRunId, .error (.raised _) => (m, .ends (.returned (.spawned childRunId .created)))
  | notify n (some e), .ok _ =>
    (m, if env.hasEventLog then .appends (traceCommit n.runId e env.stamp) else .ends (.returned .nothing))
  | turn .., .ok answer => (m, .ends (.returned (.turn answer.turn)))
  | signalRun _, .ok _ | cancelWorkflow _, .ok _ | notify _ none, .ok _ =>
    (m, .ends (.returned .nothing))
  | _, .error failure => (m, .fails failure)

/-- The segment after an append, the last one. -/
def resumeAppend (reply : Except Failure Answer) : Segment :=
  match reply with
  | .ok _ => .ends (.returned .nothing)
  | .error failure => .fails failure

/-! ### The guard -/

/-- The name under which a mutation goes through `_guard_write_operation`, if it does. -/
def Mutation.guard? : Mutation → Option String
  | submitApproval _ => some "submit_approval"
  | executeTurn .. => some "execute_turn"
  | _ => none

def Mutation.guarded (m : Mutation) : Bool := m.guard?.isSome

def isDraining (operation : String) : PyError :=
  ⟨.runtimeError, "Kernel is draining; '" ++ operation ++ "' is temporarily unavailable."⟩

/-! ### Mutations that do not come to a call -/

/-- The context adapter refuses, or the stage or branch to mark is not there. -/
def Mutation.Refused (m : FacadeMemory) (env : Surroundings) : Mutation → Prop
  | startRun request contextRef =>
    ∃ adapter e, env.contextAdapter = some adapter ∧
      adapter.bindContext request.sessionId contextRef = .error e
  | spawnChildRun request contextRef => ∃ e, childContext env request contextRef = .error e
  | markStageState runId stageId _ _ => ((m.touchRun runId).of runId).stages.get? stageId = none
  | markBranchState request =>
    ((m.touchRun request.runId).of request.runId).branches.get? request.branchId = none
  | _ => False

/-- **A mutation without a guard is refused, or its first segment ends in a call.** -/
theorem Mutation.start_cases (m : FacadeMemory) (env : Surroundings) {mutation : Mutation}
    (h : mutation.guarded = false) :
    (mutation.Refused m env ∧ ∃ outcome, (mutation.start m env).2 = .ends outcome) ∨
      (¬ mutation.Refused m env ∧ ∃ a, (mutation.start m env).2 = .forwards a) := by
  cases mutation with
  | startRun request contextRef =>
    simp only [start, Refused]
    cases env.contextAdapter with
    | none =>
      refine .inr ⟨?_, _, rfl⟩
      rintro ⟨adapter, e, hadapter, -⟩
      cases hadapter
    | some adapter =>
      cases hbind : adapter.bindContext request.sessionId contextRef with
      | error e => exact .inl ⟨⟨adapter, e, rfl, hbind⟩, .raised e, by simp only [hbind]⟩
      | ok bindingRef =>
        refine .inr ⟨?_, .startWorkflow request (some bindingRef) (some bindingRef), by simp only [hbind]⟩
        rintro ⟨adapter', e, hadapter, herror⟩
        cases hadapter
        rw [hbind] at herror
        cases herror
  | spawnChildRun request contextRef =>
    simp only [start, Refused]
    cases childContext env request contextRef with
    | error e => exact .inl ⟨⟨e, rfl⟩, _, rfl⟩
    | ok contextRef =>
      refine .inr ⟨?_, ?_⟩
      · rintro ⟨e, herror⟩
        cases herror
      simp only
      split
      · exact ⟨_, rfl⟩
      · exact ⟨_, rfl⟩
  | markStageState runId stageId newState failureCode =>
    simp only [start, FacadeMemory.notify, FacadeMemory.performed, Notification.runId, Refused,
      RunRecord.perform]
    cases ((m.touchRun runId).of runId).stages.get? stageId with
    | none => exact .inl ⟨rfl, _, rfl⟩
    | some view =>
      refine .inr ⟨?_, _, rfl⟩
      intro hnone
      cases hnone
  | markBranchState request =>
    simp only [start, FacadeMemory.notify, FacadeMemory.performed, Notification.runId, Refused,
      RunRecord.perform]
    cases ((m.touchRun request.runId).of request.runId).branches.get? request.branchId with
    | none => exact .inl ⟨rfl, _, rfl⟩
    | some view =>
      refine .inr ⟨?_, _, rfl⟩
      intro hnone
      cases hnone
  | signalRun | cancelRun | openStage | openBranch | openHumanGate => exact .inr ⟨id, _, rfl⟩
  | submitApproval | executeTurn => cases h

/-- The calls a segment makes. -/
def Segment.calls : Segment → List GatewayCall
  | forwards a => [a.call]
  | appends _ | ends _ => []

end AgentKernel.Facade
