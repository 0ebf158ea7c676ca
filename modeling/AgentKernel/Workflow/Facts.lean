import AgentKernel.Turns.Engine

/-! What the run actor writes to the event log and to its stores.

Signals, turn outcomes and recovery decisions become commits of the run. Every type,
identifier and payload that enters the log is built here, from the offset the workflow
expects its events to get and the time it reads; the clock stands still within one step
of the workflow. -/
namespace AgentKernel.Workflow
open Lib Dedupe Turns

/-! ### Inputs -/

structure ActorSignal where
  signalType : String
  signalPayload : Option Payload := none
  causedBy : Option String := none
  fromPeerRunId : Option String := none

/-- What a workflow is started with; the fields it never reads are left out. -/
structure RunInput where
  runId : String
  sessionId : Value := .none
  parentRunId : Option String := none
  pendingSignals : Option (List ActorSignal) := none
  policyVersions : Option RunPolicyVersions := none
  initialStageId : Option String := none

structure RecoveryInput where
  runId : String
  reasonCode : String
  lifecycleState : RunLifecycleState
  projection : RunProjection
  failedActionId : Option String := none
  reflectionRound : Int := 0
  capabilitySnapshot : Option CapabilitySnapshot := none
  failedEffectClass : Option String := none
  deriving DecidableEq

/-- What the recovery gate answers, as far as the workflow reads it. -/
structure RecoveryDecision where
  mode : RecoveryMode
  reason : String
  compensationActionId : Option String := none
  escalationChannelRef : Option String := none
  deriving DecidableEq

structure RecoveryOutcome where
  runId : String
  actionId : Option String
  recoveryMode : RecoveryMode
  outcomeState : String
  writtenAt : String
  operatorEscalationRef : Option String := none
  emittedEventIds : List String := []
  deriving DecidableEq

structure TurnIntentRecord where
  runId : String
  intentCommitRef : String
  decisionRef : String
  decisionFingerprint : String
  dispatchDedupeKey : Option String
  hostKind : Option HostKind
  outcomeKind : TurnOutcomeKind
  writtenAt : String
  reflectionRound : Int := 0
  deriving DecidableEq

/-! ### The texts of enumerated values -/

def recoveryModeText : RecoveryMode → String
  | .staticCompensation => "static_compensation"
  | .humanEscalation => "human_escalation"
  | .abort => "abort"
  | .reflectAndRetry => "reflect_and_retry"

def turnStateText : TurnState → String
  | .collecting => "collecting"
  | .intentCommitted => "intent_committed"
  | .reasoning => "reasoning"
  | .snapshotBuilt => "snapshot_built"
  | .admissionChecked => "admission_checked"
  | .dispatchBlocked => "dispatch_blocked"
  | .dispatched => "dispatched"
  | .dispatchAcknowledged => "dispatch_acknowledged"
  | .effectUnknown => "effect_unknown"
  | .effectRecorded => "effect_recorded"
  | .recoveryPending => "recovery_pending"
  | .completedNoop => "completed_noop"
  | .reasoningFailed => "reasoning_failed"
  | .dedupeDegraded => "dedupe_degraded"

def outcomeKindText : TurnOutcomeKind → String
  | .noop => "noop"
  | .blocked => "blocked"
  | .dispatched => "dispatched"
  | .recoveryPending => "recovery_pending"

def hostKindText : HostKind → String
  | .localProcess => "local_process"
  | .localCli => "local_cli"
  | .cliProcess => "cli_process"
  | .inProcessPython => "in_process_python"
  | .remoteService => "remote_service"

def idempotencyLevelText : ExternalIdempotencyLevel → String
  | .guaranteed => "guaranteed"
  | .bestEffort => "best_effort"
  | .unknown => "unknown"

def retryPolicyText : RetryPolicy → String
  | .noAutoRetry => "no_auto_retry"
  | .boundedRetry => "bounded_retry"

def remotePolicyReasonText : RemotePolicyReason → String
  | .missingRemoteIdempotencyContract => "missing_remote_idempotency_contract"
  | .validatedRemoteContract => "validated_remote_contract"
  | .remoteContractConstrained => "remote_contract_constrained"

def failedStageText : FailedStage → String
  | .admission => "admission"
  | .execution => "execution"
  | .verification => "verification"
  | .reconciliation => "reconciliation"
  | .callback => "callback"

def failureClassText : FailureClass → String
  | .deterministic => "deterministic"
  | .transient => "transient"
  | .policy => "policy"
  | .sideEffect => "side_effect"
  | .unknown => "unknown"

def evidenceSourceText : EvidenceSource → String
  | .externalAckRef => "external_ack_ref"
  | .evidenceRef => "evidence_ref"
  | .localInference => "local_inference"
  | .none => "none"

/-! ### Signals -/

/-- `_SIGNAL_EVENT_TYPE_MAP`. -/
def signalEventTypeMap : List (String × String) :=
  [("resume_from_snapshot", "run.resume_requested"),
   ("cancel_requested", "run.cancel_requested"),
   ("hard_failure", "run.recovery_aborted"),
   ("timeout", "run.waiting_external"),
   ("recovery_succeeded", "run.recovery_succeeded"),
   ("recovery_aborted", "run.recovery_aborted"),
   ("plan_submitted", "run.plan_submitted"),
   ("approval_submitted", "run.approval_submitted"),
   ("speculation_committed", "run.speculation_committed"),
   ("child_run_completed", "run.child_run_completed")]

def signalEventType (signalType : String) : String :=
  (signalEventTypeMap.lookup signalType).getD ("signal." ++ signalType)

/-- `dict.setdefault`. -/
def setDefault (payload : Payload) (key : String) (value : Value) : Payload :=
  if (payload.lookup key).isSome then payload else payload ++ [(key, value)]

def normalizeSignalPayload (signalType : String) (signalPayload : Option Payload) : Option Payload :=
  let payload := signalPayload.getD []
  let normalized :=
    if signalType = "cancel_requested" then setDefault payload "reason" (.str "cancel_requested")
    else if signalType = "hard_failure" then
      setDefault (setDefault payload "mode" (.str "abort")) "reason" (.str "hard_failure")
    else if signalType = "timeout" then
      setDefault (setDefault payload "mode" (.str "human_escalation")) "reason" (.str "timeout")
    else payload
  if normalized.isEmpty then none else some normalized

/-- The cause of a signal, when it names one: the empty text names none. -/
def ActorSignal.cause? (s : ActorSignal) : Option String :=
  match s.causedBy with
  | some cause => if cause = "" then none else some cause
  | none => none

/-- The token under which the workflow remembers a signal. -/
def ActorSignal.token? (s : ActorSignal) : Option String :=
  s.cause?.map (fun cause => s.signalType ++ ":" ++ cause)

def signalEventId (sequence : Nat) : String := "evt-signal-" ++ toString sequence

def signalCommit (runId : String) (s : ActorSignal) (sequence : Nat) (nextOffset : Int)
    (now : String) : ActionCommit :=
  { runId := runId
    commitId := "signal:" ++ s.signalType ++ ":" ++ s.cause?.getD ("seq-" ++ toString sequence)
    createdAt := now
    causedBy := s.causedBy
    events :=
      [{ runId := runId
         eventId := signalEventId sequence
         commitOffset := nextOffset
         eventType := signalEventType s.signalType
         eventClass := .fact
         eventAuthority := .authoritativeFact
         orderingKey := runId
         wakePolicy := .wakeActor
         payloadJson := normalizeSignalPayload s.signalType s.signalPayload
         createdAt := now }] }

/-! ### The policy pin -/

def policyPinEventId (runId : String) : String := "evt-policy-pinned-" ++ runId

def policyPinnedCommit (runId : String) (versions : RunPolicyVersions) (now : String) : ActionCommit :=
  { runId := runId
    commitId := "policy-versions-pinned:" ++ runId
    createdAt := now
    causedBy := some "run.start"
    events :=
      [{ runId := runId
         eventId := policyPinEventId runId
         commitOffset := 0
         eventType := "run.policy_versions_pinned"
         eventClass := .fact
         eventAuthority := .authoritativeFact
         orderingKey := runId
         wakePolicy := .projectionOnly
         createdAt := now
         payloadJson := some
           [("route_policy_version", optionalText versions.routePolicyVersion),
            ("skill_policy_version", optionalText versions.skillPolicyVersion),
            ("evaluation_policy_version", optionalText versions.evaluationPolicyVersion),
            ("task_view_policy_version", optionalText versions.taskViewPolicyVersion),
            ("pinned_at", .str versions.pinnedAt)] }] }

/-! ### Turn outcomes -/

def turnOutcomeEventType : TurnOutcomeKind → String
  | .dispatched => "run.dispatching"
  | .recoveryPending => "run.recovering"
  | .blocked | .noop => "run.ready"

def buildRemotePolicyDecisionPayload (decision : RemoteDispatchPolicyDecision) : Value :=
  .dict
    [("effective_idempotency_level", .str (idempotencyLevelText decision.effectiveIdempotencyLevel)),
     ("default_retry_policy", .str (retryPolicyText decision.defaultRetryPolicy)),
     ("auto_retry_enabled", .bool decision.autoRetryEnabled),
     ("can_claim_guaranteed", .bool decision.canClaimGuaranteed),
     ("reason", .str (remotePolicyReasonText decision.reason))]

/-- The digest is put into the payload as the object it is. -/
def executionContextPayload (context : ExecutionContext) : Value :=
  .dict
    [("run_id", .str context.runId),
     ("action_id", .str context.actionId),
     ("causation_id", optionalText context.causationId),
     ("correlation_id", optionalText context.correlationId),
     ("lineage_id", optionalText context.lineageId),
     ("capability_snapshot_ref", optionalText context.capabilitySnapshotRef),
     ("capability_snapshot_hash", optionalText context.capabilitySnapshotHash),
     ("context_binding_ref", optionalText context.contextBindingRef),
     ("grant_ref", optionalText context.grantRef),
     ("policy_snapshot_ref", optionalText context.policySnapshotRef),
     ("rule_bundle_hash", optionalText context.ruleBundleHash),
     ("declarative_bundle_digest",
       match context.declarativeBundleDigest with
       | some digest => .object ("DeclarativeBundleDigest(bundle_ref=" ++ Text.quoted digest.bundleRef ++
           ", semantics_version=" ++ Text.quoted digest.semanticsVersion ++
           ", content_hash=" ++ Text.quoted digest.contentHash ++
           ", compile_hash=" ++ Text.quoted digest.compileHash ++ ")")
       | none => .none),
     ("timeout_ms",
       match context.timeoutMs with
       | some ms => .int ms
       | none => .none),
     ("budget_ref", optionalText context.budgetRef)]

def actionCommitPayload (commit : DispatchCommit) : Value :=
  .dict
    [("action_id", .str commit.actionId),
     ("run_id", .str commit.runId),
     ("committed_at", .str commit.committedAt),
     ("execution_context", executionContextPayload commit.executionContext)]

def buildRecoveryInputPayload (envelope : FailureEnvelope) : Value :=
  .dict
    [("failure_code", .str envelope.failureCode),
     ("failed_stage", .str (failedStageText envelope.failedStage)),
     ("failed_component", .str envelope.failedComponent),
     ("failure_class", .str (failureClassText envelope.failureClass)),
     ("evidence_priority_source", .str (evidenceSourceText envelope.evidencePrioritySource)),
     ("evidence_priority_ref", optionalText envelope.evidencePriorityRef)]

/-- An entry that is left out when there is nothing to put in. -/
def optionalEntry {α : Type} (key : String) (value : Option α) (make : α → Value) : Payload :=
  match value with
  | some a => [(key, make a)]
  | none => []

def extractTurnEmittedStates (events : List TurnStateEvent) : List String :=
  events.map (fun event => turnStateText event.state)

def buildTurnOutcomePayload (result : TurnResult) : Payload :=
  [("state", .str (turnStateText result.state)),
   ("outcome_kind", .str (outcomeKindText result.outcomeKind)),
   ("decision_ref", .str result.decisionRef),
   ("decision_fingerprint", .str result.decisionFingerprint)] ++
  optionalEntry "intent_commit_ref" result.intentCommitRef .str ++
  optionalEntry "dispatch_dedupe_key" result.dispatchDedupeKey .str ++
  optionalEntry "host_kind" result.hostKind (fun host => .str (hostKindText host)) ++
  optionalEntry "remote_policy_decision" result.remotePolicyDecision buildRemotePolicyDecisionPayload ++
  (if result.emittedEvents.isEmpty then []
   else [("emitted_states", .list ((extractTurnEmittedStates result.emittedEvents).map .str))]) ++
  optionalEntry "action_commit" result.actionCommit actionCommitPayload ++
  optionalEntry "recovery_input" result.recoveryInput buildRecoveryInputPayload

def turnOutcomeCommit (runId : String) (offset : Int) (result : TurnResult) (causedBy : String)
    (now : String) : ActionCommit :=
  { runId := runId
    commitId := "turn:" ++ outcomeKindText result.outcomeKind ++ ":" ++ toString offset
    createdAt := now
    causedBy := some causedBy
    events :=
      [{ runId := runId
         eventId := "evt-turn-" ++ outcomeKindText result.outcomeKind ++ "-" ++ toString offset
         commitOffset := offset
         eventType := turnOutcomeEventType result.outcomeKind
         eventClass := .fact
         eventAuthority := .authoritativeFact
         orderingKey := runId
         wakePolicy := .wakeActor
         idempotencyKey := some result.decisionFingerprint
         payloadJson := some (buildTurnOutcomePayload result)
         createdAt := now }] }

def turnIntent (runId : String) (intentCommitRef : String) (result : TurnResult) (now : String) :
    TurnIntentRecord :=
  { runId := runId
    intentCommitRef := intentCommitRef
    decisionRef := result.decisionRef
    decisionFingerprint := result.decisionFingerprint
    dispatchDedupeKey := result.dispatchDedupeKey
    hostKind := result.hostKind
    outcomeKind := result.outcomeKind
    writtenAt := now }

/-! ### Recovery -/

def recoveryEventType : RecoveryMode → String
  | .abort => "run.recovery_aborted"
  | .humanEscalation => "run.waiting_external"
  | .staticCompensation | .reflectAndRetry => "run.recovering"

def recoveryOutcomeState : RecoveryMode → String
  | .abort => "aborted"
  | .humanEscalation => "escalated"
  | .staticCompensation | .reflectAndRetry => "executed"

def recoveryPlanEventId (offset : Int) : String := "evt-recovery-plan-" ++ toString offset

def recoveryEventId (offset : Int) : String := "evt-recovery-" ++ toString offset

/-- The planner's decision as a diagnostic, then the fact. -/
def recoveryCommit (runId : String) (offset : Int) (decision : RecoveryDecision) (causedBy : String)
    (now : String) : ActionCommit :=
  { runId := runId
    commitId := "recovery:" ++ recoveryEventType decision.mode ++ ":" ++ toString offset
    createdAt := now
    causedBy := some causedBy
    events :=
      [{ runId := runId
         eventId := recoveryPlanEventId offset
         commitOffset := offset
         eventType := "recovery.plan_selected"
         eventClass := .derived
         eventAuthority := .derivedDiagnostic
         orderingKey := runId
         wakePolicy := .projectionOnly
         payloadJson := some
           [("planned_mode", .str (recoveryModeText decision.mode)),
            ("reason", .str decision.reason),
            ("compensation_action_id", optionalText decision.compensationActionId),
            ("escalation_channel_ref", optionalText decision.escalationChannelRef)]
         createdAt := now },
       { runId := runId
         eventId := recoveryEventId offset
         commitOffset := offset + 1
         eventType := recoveryEventType decision.mode
         eventClass := .fact
         eventAuthority := .authoritativeFact
         orderingKey := runId
         wakePolicy := .wakeActor
         payloadJson := some
           [("mode", .str (recoveryModeText decision.mode)), ("reason", .str decision.reason)]
         createdAt := now }] }

def recoveryOutcome (runId : String) (offset : Int) (decision : RecoveryDecision) (causedBy : String)
    (now : String) : RecoveryOutcome :=
  { runId := runId
    actionId := some causedBy
    recoveryMode := decision.mode
    outcomeState := recoveryOutcomeState decision.mode
    operatorEscalationRef := decision.escalationChannelRef
    emittedEventIds := [recoveryPlanEventId offset, recoveryEventId offset]
    writtenAt := now }

/-! ### Guards -/

/-- `_assert_no_derived_diagnostic_authority_input`. -/
def assertNoDerivedDiagnosticAuthorityInput (commit : ActionCommit) : Except Raised Unit :=
  if commit.events.any (fun event => event.eventAuthority = .derivedDiagnostic) then
    .error (.exception
      ⟨.valueError, "derived_diagnostic events must not enter authority input path."⟩)
  else .ok ()

def assertSingleDispatchAttemptInTurn (result : TurnResult) : Except PyError Unit :=
  if result.emittedEvents.countP (fun event => event.state = .dispatched) > 1 then
    .error ⟨.runtimeError, "Single turn must not contain multiple authoritative dispatch attempts."⟩
  else .ok ()

def assertRecoveryGateIsReadOnly (beforeOffset afterOffset : Int) : Except PyError Unit :=
  if afterOffset ≠ beforeOffset then
    .error ⟨.runtimeError,
      "Recovery gate must be read-only and cannot append runtime events directly."⟩
  else .ok ()

def assertRecoveryEventTypeAllowed (eventType : String) : Except PyError Unit :=
  if eventType ∉ ["run.recovering", "run.waiting_external", "run.recovery_aborted"] then
    .error ⟨.runtimeError, "Recovery event type is not allowed for lifecycle safety: " ++ eventType⟩
  else .ok ()

/-- Every decision has an event type the guard lets pass. -/
theorem recoveryEventType_allowed (mode : RecoveryMode) :
    assertRecoveryEventTypeAllowed (recoveryEventType mode) = .ok () := by
  cases mode <;> rfl

/-- `events[-1].commit_offset`. -/
def lastCommitOffset (commit : ActionCommit) : Except Raised Int :=
  match commit.events.getLast? with
  | some event => .ok event.commitOffset
  | none => .error (.exception ⟨.other "IndexError", "list index out of range"⟩)

end AgentKernel.Workflow
