import AgentKernel.Turns.Ports

/-! Where an action is dispatched and under which envelope.

The host is read from the action's tags, then its payload, then its effect. A
remote dispatch that asks for guaranteed idempotency is let through only with a
contract that can prove it (`guaranteed_needs_contract`). -/
namespace AgentKernel.Turns
open Lib Dedupe

/-! ### Remote-service policy -/

inductive RemotePolicyReason where
  | missingRemoteIdempotencyContract
  | validatedRemoteContract
  | remoteContractConstrained
  deriving DecidableEq, Repr

structure RemoteDispatchPolicyDecision where
  effectiveIdempotencyLevel : ExternalIdempotencyLevel
  defaultRetryPolicy : RetryPolicy
  autoRetryEnabled : Bool
  canClaimGuaranteed : Bool
  reason : RemotePolicyReason
  deriving DecidableEq, Repr

/-- A guaranteed level that cannot be claimed is lowered. -/
def loweredLevel (level : ExternalIdempotencyLevel) : ExternalIdempotencyLevel :=
  if level = .guaranteed then .bestEffort else level

def evaluateRemoteServicePolicy (externalLevel : Option ExternalIdempotencyLevel)
    (contract : Option RemoteServiceIdempotencyContract) : RemoteDispatchPolicyDecision :=
  let level := externalLevel.getD .unknown
  match contract with
  | none =>
    { effectiveIdempotencyLevel := loweredLevel level
      defaultRetryPolicy := .noAutoRetry
      autoRetryEnabled := false
      canClaimGuaranteed := false
      reason := .missingRemoteIdempotencyContract }
  | some contract =>
    let canClaim := decide (level = .guaranteed) && contract.acceptsDispatchIdempotencyKey &&
      contract.returnsStableAck
    { effectiveIdempotencyLevel := if canClaim then .guaranteed else loweredLevel level
      defaultRetryPolicy := contract.defaultRetryPolicy
      autoRetryEnabled := decide (contract.defaultRetryPolicy = .boundedRetry)
      canClaimGuaranteed := canClaim
      reason := if canClaim then .validatedRemoteContract else .remoteContractConstrained }

def peerRetryModel? : Value → Option PeerRetryModel
  | .str "unknown" => some .unknown
  | .str "at_most_once" => some .atMostOnce
  | .str "at_least_once" => some .atLeastOnce
  | .str "exactly_once_claimed" => some .exactlyOnceClaimed
  | _ => none

def retryPolicy? : Value → Option RetryPolicy
  | .str "no_auto_retry" => some .noAutoRetry
  | .str "bounded_retry" => some .boundedRetry
  | _ => none

def bool? : Value → Option Bool
  | .bool b => some b
  | _ => none

def parseRemoteServiceContract (payload : Value) : Option RemoteServiceIdempotencyContract := do
  let fields ← payload.dict?
  let acceptsDispatchKey ← bool? (Value.field fields "accepts_dispatch_idempotency_key")
  let returnsStableAck ← bool? (Value.field fields "returns_stable_ack")
  let peerRetryModel ← peerRetryModel? (Value.field fields "peer_retry_model")
  let defaultRetryPolicy ← retryPolicy? (Value.field fields "default_retry_policy")
  some ⟨acceptsDispatchKey, returnsStableAck, peerRetryModel, defaultRetryPolicy⟩

def extractRemoteServiceContract (inputJson : Option Payload) :
    Option RemoteServiceIdempotencyContract :=
  match inputJson with
  | none => none
  | some input =>
    let nested := match (Value.field input "remote_service").dict? with
      | some remote => [Value.field remote "idempotency_contract", Value.field remote "contract"]
      | none => []
    ([Value.field input "remote_service_idempotency_contract",
      Value.field input "remote_idempotency_contract",
      Value.field input "idempotency_contract"] ++ nested).findSome? parseRemoteServiceContract

/-! ### The host -/

def hostKindOf : String → Option HostKind
  | "local_cli" => some .localCli
  | "local_process" => some .localProcess
  | "remote_service" => some .remoteService
  | "cli_process" => some .cliProcess
  | "in_process_python" => some .inProcessPython
  | _ => none

def normalizeHostKind (value : Value) : Option HostKind :=
  value.str?.bind (fun s => hostKindOf (Text.lower (Text.strip s)))

def hostTags : List String := ["host:", "host_kind:", "dispatch_host:", "dispatch_host_kind:"]

def extractHostKindFromPolicyTags (policyTags : List String) : Option HostKind :=
  policyTags.findSome? (fun tag =>
    let normalized := Text.lower (Text.strip tag)
    hostTags.findSome? (fun front =>
      if Text.startsWith normalized front then
        normalizeHostKind (.str (Text.dropFront normalized front))
      else none))

def hostKeys : List String := ["host_kind", "dispatch_host_kind", "host", "dispatch_host"]

def extractHostKindFromPayload (payload : Payload) : Option HostKind :=
  (hostKeys.findSome? (fun key => normalizeHostKind (Value.field payload key))).or
    ((Value.field payload "dispatch").dict?.bind (fun dispatch =>
      hostKeys.findSome? (fun key => normalizeHostKind (Value.field dispatch key))))

def resolveExplicitHostKind (action : Action) : Option HostKind :=
  (extractHostKindFromPolicyTags action.policyTags).or
    (extractHostKindFromPayload (action.inputJson.getD []))

def resolveDispatchHostKind (action : Action) : HostKind :=
  match resolveExplicitHostKind action with
  | some host => host
  | none =>
    if action.effectClass ≠ .readOnly ∧ action.externalIdempotencyLevel ≠ none then .remoteService
    else .localCli

/-! ### The dispatch policy -/

structure DispatchPolicy where
  hostKind : HostKind
  shouldBlock : Bool
  blockReason : Option String := none
  remotePolicyDecision : Option RemoteDispatchPolicyDecision := none
  deriving DecidableEq, Repr

def resolveDispatchPolicy (action : Action) : DispatchPolicy :=
  let hostKind := resolveDispatchHostKind action
  if hostKind ≠ .remoteService ∨ action.effectClass = .readOnly then
    { hostKind := hostKind, shouldBlock := false }
  else
    let remotePolicy := evaluateRemoteServicePolicy action.externalIdempotencyLevel
      (extractRemoteServiceContract action.inputJson)
    if action.externalIdempotencyLevel = some .guaranteed ∧ ¬ remotePolicy.canClaimGuaranteed then
      { hostKind := hostKind
        shouldBlock := true
        blockReason := some "idempotency_contract_insufficient"
        remotePolicyDecision := some remotePolicy }
    else
      { hostKind := hostKind, shouldBlock := false, remotePolicyDecision := some remotePolicy }

/-- **A guaranteed dispatch is only let through on a contract that can prove it.** -/
theorem guaranteed_needs_contract {action : Action}
    (hhost : resolveDispatchHostKind action = .remoteService)
    (heffect : action.effectClass ≠ .readOnly)
    (hlevel : action.externalIdempotencyLevel = some .guaranteed)
    (hopen : (resolveDispatchPolicy action).shouldBlock = false) :
    ∃ contract, extractRemoteServiceContract action.inputJson = some contract ∧
      contract.acceptsDispatchIdempotencyKey = true ∧ contract.returnsStableAck = true := by
  have hcheck : ¬ (resolveDispatchHostKind action ≠ .remoteService ∨
      action.effectClass = .readOnly) := by simp [hhost, heffect]
  simp only [resolveDispatchPolicy, if_neg hcheck, hlevel, true_and] at hopen
  cases hcontract : extractRemoteServiceContract action.inputJson with
  | none => simp [hcontract, evaluateRemoteServicePolicy] at hopen
  | some contract =>
    refine ⟨contract, rfl, ?_⟩
    cases haccepts : contract.acceptsDispatchIdempotencyKey <;>
      cases hack : contract.returnsStableAck <;>
      simp [hcontract, evaluateRemoteServicePolicy, haccepts, hack] at hopen ⊢

/-! ### The envelope -/

/-- `_read_optional_string`. -/
def readOptionalString (payload : Payload) (key : String) : Option String :=
  match Value.field payload key with
  | .str s => if Text.strip s ≠ "" then some (Text.strip s) else none
  | _ => none

def nonemptyString? : Value → Option String
  | .str s => if s = "" then none else some s
  | _ => none

/-- A positive `int`; `True` is one. -/
def positiveInt? : Value → Option Int
  | .int i => if i ≤ 0 then none else some i
  | .bool b => if b then some 1 else none
  | _ => none

def parseIdempotencyEnvelope (payload : EnvelopePayload) (capabilitySnapshotHash : String) :
    Option IdempotencyEnvelope :=
  match payload with
  | .envelope e => some e
  | .value v => do
    let fields ← v.dict?
    let key ← nonemptyString? (Value.field fields "dispatch_idempotency_key")
    let operationFingerprint ← nonemptyString? (Value.field fields "operation_fingerprint")
    let attemptSeq ← positiveInt? (Value.field fields "attempt_seq")
    let effectScope ← nonemptyString? (Value.field fields "effect_scope")
    let hostKind ← normalizeHostKind (Value.field fields "host_kind")
    some
      { dispatchIdempotencyKey := key
        operationFingerprint := operationFingerprint
        attemptSeq := attemptSeq
        effectScope := effectScope
        capabilitySnapshotHash :=
          ((fields.lookup "capability_snapshot_hash").getD (.str capabilitySnapshotHash)).text
        hostKind := hostKind
        peerOperationId := readOptionalString fields "peer_operation_id"
        policySnapshotRef := readOptionalString fields "policy_snapshot_ref"
        ruleBundleHash := readOptionalString fields "rule_bundle_hash" }

/-- The envelope of a dispatch: what admission proposed, under the turn's own key and
fingerprint, or the defaults. -/
def resolveIdempotencyEnvelope (admission : AdmissionValue) (identity : TurnIdentity)
    (action : Action) (snapshot : CapabilitySnapshot) (hostKind : HostKind) :
    IdempotencyEnvelope :=
  match parseIdempotencyEnvelope admission.envelopePayload snapshot.snapshotHash with
  | some parsed =>
    { parsed with
      dispatchIdempotencyKey := identity.dispatchDedupeKey
      operationFingerprint := identity.decisionFingerprint }
  | none =>
    { dispatchIdempotencyKey := identity.dispatchDedupeKey
      operationFingerprint := identity.decisionFingerprint
      attemptSeq := 1
      effectScope := action.effectClass.text
      capabilitySnapshotHash := snapshot.snapshotHash
      hostKind := hostKind }

/-- Whatever admission proposes, the dispatch is reserved under the turn's key. -/
theorem resolveIdempotencyEnvelope_key (admission : AdmissionValue) (identity : TurnIdentity)
    (action : Action) (snapshot : CapabilitySnapshot) (hostKind : HostKind) :
    (resolveIdempotencyEnvelope admission identity action snapshot hostKind).dispatchIdempotencyKey
      = identity.dispatchDedupeKey := by
  unfold resolveIdempotencyEnvelope
  split <;> rfl

def resolveDedupeDowngradeScope (hostKind : HostKind) : String :=
  if hostKind = .remoteService then "irreversible_write" else "compensatable_write"

def buildExecutionContext (input : TurnInput) (action : Action) (snapshot : CapabilitySnapshot)
    (identity : TurnIdentity) (admission : AdmissionValue) (envelope : IdempotencyEnvelope) :
    ExecutionContext :=
  { runId := input.runId
    actionId := action.actionId
    causationId := some identity.intentCommitRef
    correlationId := some identity.decisionRef
    lineageId := some identity.decisionFingerprint
    capabilitySnapshotRef := some snapshot.snapshotRef
    capabilitySnapshotHash := some snapshot.snapshotHash
    contextBindingRef := snapshot.contextBindingRef
    grantRef := (admission.attribute (·.grantRef)).str?
    policySnapshotRef := (admission.attribute (·.policySnapshotRef)).str?
    ruleBundleHash := envelope.ruleBundleHash
    declarativeBundleDigest := snapshot.declarativeBundleDigest
    timeoutMs := action.timeoutMs
    budgetRef := snapshot.budgetRef }

/-! ### Failure evidence -/

/-- `_normalize_optional_ref`. -/
def normalizeOptionalRef (value : Option String) : Option String :=
  value.bind (fun s => if Text.strip s = "" then none else some (Text.strip s))

def resolveFailureEvidence (envelope : FailureEnvelope) : EvidenceSource × Option String :=
  match normalizeOptionalRef envelope.externalAckRef with
  | some ref => (.externalAckRef, some ref)
  | none =>
    match normalizeOptionalRef envelope.evidenceRef with
    | some ref => (.evidenceRef, some ref)
    | none =>
      match normalizeOptionalRef envelope.localInference with
      | some ref => (.localInference, some ref)
      | none => (.none, none)

def applyFailureEvidencePriority (envelope : FailureEnvelope) : FailureEnvelope :=
  { envelope with
    evidencePrioritySource := (resolveFailureEvidence envelope).1
    evidencePriorityRef := (resolveFailureEvidence envelope).2 }

/-- The failure envelope of an execution that was not acknowledged. -/
def effectUnknownEnvelope (input : TurnInput) (action : Action) (result : Payload) :
    FailureEnvelope :=
  applyFailureEvidencePriority
    { runId := input.runId
      actionId := some action.actionId
      failedStage := .execution
      failedComponent := "executor"
      failureCode := "effect_unknown"
      failureClass := .unknown
      evidenceRef := readOptionalString result "evidence_ref"
      externalAckRef := readOptionalString result "external_ack_ref"
      localInference := some ((readOptionalString result "local_inference").getD
        "turn_engine:effect_unknown_without_ack")
      humanEscalationHint := some "manual_verification_required" }

end AgentKernel.Turns
