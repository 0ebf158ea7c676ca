import AgentKernel.Workflow.Facts

/-! The signals the facade and the heartbeat watchdog send to a run.

Every operation that changes what the facade tracks of a run tells the run's workflow
about it. A notification is such an operation with the arguments it was called with;
`Notification.request` is the signal it sends, and the gateway passes the signal on as it
is (`SignalRunRequest.actorSignal`). -/
namespace AgentKernel.Facade
open Lib Workflow

/-! ### Requests -/

inductive TraceStageState where
  | pending
  | active
  | blocked
  | completed
  | failed
  deriving DecidableEq, Repr

def TraceStageState.text : TraceStageState → String
  | .pending => "pending"
  | .active => "active"
  | .blocked => "blocked"
  | .completed => "completed"
  | .failed => "failed"

inductive TraceBranchState where
  | proposed
  | active
  | waiting
  | pruned
  | succeeded
  | failed
  deriving DecidableEq, Repr

def TraceBranchState.text : TraceBranchState → String
  | .proposed => "proposed"
  | .active => "active"
  | .waiting => "waiting"
  | .pruned => "pruned"
  | .succeeded => "succeeded"
  | .failed => "failed"

inductive TraceFailureCode where
  | missingEvidence
  | invalidContext
  | harnessDenied
  | modelOutputInvalid
  | modelRefusal
  | callbackTimeout
  | noProgress
  | contradictoryEvidence
  | unsafeActionBlocked
  | explorationBudgetExhausted
  | executionBudgetExhausted
  deriving DecidableEq, Repr

def TraceFailureCode.value : TraceFailureCode → String
  | .missingEvidence => "missing_evidence"
  | .invalidContext => "invalid_context"
  | .harnessDenied => "harness_denied"
  | .modelOutputInvalid => "model_output_invalid"
  | .modelRefusal => "model_refusal"
  | .callbackTimeout => "callback_timeout"
  | .noProgress => "no_progress"
  | .contradictoryEvidence => "contradictory_evidence"
  | .unsafeActionBlocked => "unsafe_action_blocked"
  | .explorationBudgetExhausted => "exploration_budget_exhausted"
  | .executionBudgetExhausted => "execution_budget_exhausted"

inductive HumanGateType where
  | contractCorrection
  | routeDirection
  | artifactReview
  | finalApproval
  deriving DecidableEq, Repr

def HumanGateType.text : HumanGateType → String
  | .contractCorrection => "contract_correction"
  | .routeDirection => "route_direction"
  | .artifactReview => "artifact_review"
  | .finalApproval => "final_approval"

inductive TriggerSource where
  | system
  | human
  deriving DecidableEq, Repr

def TriggerSource.text : TriggerSource → String
  | .system => "system"
  | .human => "human"

structure OpenBranchRequest where
  runId : String
  branchId : String
  stageId : String
  parentBranchId : Option String := none
  proposedBy : Option String := none
  deriving DecidableEq, Repr

structure BranchStateUpdateRequest where
  runId : String
  branchId : String
  newState : TraceBranchState
  failureCode : Option TraceFailureCode := none
  reason : Option String := none
  deriving DecidableEq, Repr

structure HumanGateRequest where
  gateRef : String
  gateType : HumanGateType
  runId : String
  triggerReason : String
  triggerSource : TriggerSource
  stageId : Option String := none
  branchId : Option String := none
  artifactRef : Option String := none
  causedBy : Option String := none
  deriving DecidableEq, Repr

structure ApprovalRequest where
  runId : String
  approvalRef : String
  approved : Bool
  reviewerId : String
  reason : Option String := none
  causedBy : Option String := none
  deriving DecidableEq, Repr

structure SignalRunRequest where
  runId : String
  signalType : String
  signalPayload : Option Payload := none
  causedBy : Option String := none

/-- What the gateway hands to the workflow. -/
def SignalRunRequest.actorSignal (request : SignalRunRequest) : ActorSignal :=
  { signalType := request.signalType
    signalPayload := request.signalPayload
    causedBy := request.causedBy }

/-! ### Notifications -/

/-- `caused_by or default`. -/
def causedByOr (causedBy : Option String) (default : String) : String :=
  (Text.orElse causedBy none).getD default

/-- `_build_signal_observability`. -/
def buildSignalObservability (operation runId : String) (causedBy : Option String) : Payload :=
  [("correlation_id", .str (causedByOr causedBy (operation ++ ":" ++ runId))),
   ("event_ref", .str ("facade:" ++ operation ++ ":" ++ runId))]

/-- An operation that signals a run. A spawned child is known by the id the gateway gave
it, a silence by the text of its seconds. -/
inductive Notification where
  | spawnChildRun (parentRunId childRunId : String)
  | openStage (stageId runId : String) (branchId : Option String)
  | markStageState (runId stageId : String) (newState : TraceStageState) (failureCode : Option String)
  | openBranch (request : OpenBranchRequest)
  | markBranchState (request : BranchStateUpdateRequest)
  | openHumanGate (request : HumanGateRequest)
  | submitApproval (request : ApprovalRequest)
  | resolveEscalation (runId : String) (resolutionNotes causedBy : Option String)
  | escalateRecovery (runId reason : String) (causedBy : Option String)
  | heartbeatTimeout (runId silentS : String)
  deriving DecidableEq, Repr

namespace Notification

def runId : Notification → String
  | spawnChildRun parentRunId _ => parentRunId
  | openStage _ runId _ => runId
  | markStageState runId _ _ _ => runId
  | openBranch request => request.runId
  | markBranchState request => request.runId
  | openHumanGate request => request.runId
  | submitApproval request => request.runId
  | resolveEscalation runId _ _ => runId
  | escalateRecovery runId _ _ => runId
  | heartbeatTimeout runId _ => runId

def signalType : Notification → String
  | spawnChildRun .. => "child_spawned"
  | openStage .. => "stage_opened"
  | markStageState .. => "stage_state_updated"
  | openBranch _ => "branch_opened"
  | markBranchState _ => "branch_state_updated"
  | openHumanGate _ => "human_gate_opened"
  | submitApproval _ => "approval_submitted"
  | resolveEscalation .. => "recovery_succeeded"
  | escalateRecovery .. => "recovery_escalation"
  | heartbeatTimeout .. => "heartbeat_timeout"

def signalPayload : Notification → Option Payload
  | spawnChildRun parentRunId childRunId => some
    (("child_run_id", .str childRunId) :: buildSignalObservability "spawn_child" parentRunId none)
  | openStage stageId _ branchId => some
    [("stage_id", .str stageId), ("branch_id", optionalText branchId)]
  | markStageState _ stageId newState failureCode => some
    [("stage_id", .str stageId), ("new_state", .str newState.text),
     ("failure_code", optionalText failureCode)]
  | openBranch request => some
    [("branch_id", .str request.branchId), ("stage_id", .str request.stageId),
     ("parent_branch_id", optionalText request.parentBranchId),
     ("proposed_by", optionalText request.proposedBy)]
  | markBranchState request => some
    [("branch_id", .str request.branchId), ("new_state", .str request.newState.text),
     ("failure_code", optionalText (request.failureCode.map TraceFailureCode.value)),
     ("reason", optionalText request.reason)]
  | openHumanGate request => some
    [("gate_ref", .str request.gateRef), ("gate_type", .str request.gateType.text),
     ("trigger_reason", .str request.triggerReason),
     ("trigger_source", .str request.triggerSource.text),
     ("stage_id", optionalText request.stageId), ("branch_id", optionalText request.branchId),
     ("artifact_ref", optionalText request.artifactRef),
     ("caused_by", optionalText request.causedBy)]
  | submitApproval request => some
    ([("approval_ref", .str request.approvalRef), ("approved", .bool request.approved),
      ("reviewer_id", .str request.reviewerId), ("reason", optionalText request.reason)] ++
     buildSignalObservability "submit_approval" request.runId request.causedBy)
  | resolveEscalation _ resolutionNotes _ =>
    match Text.orElse resolutionNotes none with
    | some notes => some [("resolution_notes", .str notes)]
    | none => none
  | escalateRecovery runId reason causedBy => some
    (("reason", .str reason) :: buildSignalObservability "recovery_escalation" runId causedBy)
  | heartbeatTimeout _ silentS => some [("silent_s", .float silentS)]

/-- Most operations name themselves as the cause. -/
def causedBy : Notification → Option String
  | spawnChildRun .. => some "kernel_facade.spawn_child_run"
  | openStage .. => some "kernel_facade.open_stage"
  | markStageState .. => some "kernel_facade.mark_stage_state"
  | openBranch _ => some "kernel_facade.open_branch"
  | markBranchState _ => some "kernel_facade.mark_branch_state"
  | openHumanGate _ => some "kernel_facade.open_human_gate"
  | submitApproval request => some (causedByOr request.causedBy ("approval:" ++ request.approvalRef))
  | resolveEscalation runId _ causedBy => some (causedByOr causedBy ("resolve_escalation:" ++ runId))
  | escalateRecovery _ _ causedBy => causedBy
  | heartbeatTimeout runId _ => some ("heartbeat_monitor:" ++ runId)

/-- The signal the operation sends. -/
def request (n : Notification) : SignalRunRequest :=
  { runId := n.runId
    signalType := n.signalType
    signalPayload := n.signalPayload
    causedBy := n.causedBy }

end Notification
end AgentKernel.Facade
