import AgentKernel.Lib.Value

/-! The kernel's contracts: events, actions, commits and projections. -/
namespace AgentKernel
open Lib

/-! ### Exceptions -/

inductive ErrorKind where
  | valueError
  | typeError
  | runtimeError
  | overflowError
  | operationalError
  | integrityError
  | dataError
  | dedupeStoreStateError
  | capabilitySnapshotBuildError
  | other (name : String)
  deriving DecidableEq, Repr

/-- `type(error).__name__`. -/
def ErrorKind.name : ErrorKind → String
  | .valueError => "ValueError"
  | .typeError => "TypeError"
  | .runtimeError => "RuntimeError"
  | .overflowError => "OverflowError"
  | .operationalError => "OperationalError"
  | .integrityError => "IntegrityError"
  | .dataError => "DataError"
  | .dedupeStoreStateError => "DedupeStoreStateError"
  | .capabilitySnapshotBuildError => "CapabilitySnapshotBuildError"
  | .other name => name

/-- The kinds `except ValueError` catches. -/
def ErrorKind.isValueError : ErrorKind → Bool
  | .valueError | .dedupeStoreStateError | .capabilitySnapshotBuildError => true
  | _ => false

/-- A raised `Exception` and its text. -/
structure PyError where
  kind : ErrorKind
  message : String := ""
  deriving DecidableEq, Repr

/-- What the interpreter says to a number that has too many digits for a text. -/
def tooManyDigits : PyError := ⟨.valueError, "Exceeds the limit (4300 digits) for integer string " ++
  "conversion; use sys.set_int_max_str_digits() to increase the limit"⟩

/-- `asyncio.CancelledError`, as a cancelled task raises it. -/
def cancelledError : PyError := ⟨.other "CancelledError", ""⟩

/-- What every event log says to a commit without events. -/
def emptyCommit : PyError := ⟨.valueError, "ActionCommit.events must contain at least one event."⟩

/-! ### Runs and events -/

inductive RunLifecycleState where
  | created
  | ready
  | dispatching
  | waitingResult
  | waitingExternal
  | recovering
  | completed
  | failed
  | aborted
  deriving DecidableEq, Repr

inductive EffectClass where
  | readOnly
  | idempotentWrite
  | compensatableWrite
  | irreversibleWrite
  deriving DecidableEq, Repr

def EffectClass.text : EffectClass → String
  | .readOnly => "read_only"
  | .idempotentWrite => "idempotent_write"
  | .compensatableWrite => "compensatable_write"
  | .irreversibleWrite => "irreversible_write"

inductive ExternalIdempotencyLevel where
  | guaranteed
  | bestEffort
  | unknown
  deriving DecidableEq, Repr

inductive RecoveryMode where
  | staticCompensation
  | humanEscalation
  | abort
  | reflectAndRetry
  deriving DecidableEq, Repr

inductive HostKind where
  | localProcess
  | localCli
  | cliProcess
  | inProcessPython
  | remoteService
  deriving DecidableEq, Repr

inductive EventClass where
  | fact
  | derived
  deriving DecidableEq, Repr

inductive EventAuthority where
  | authoritativeFact
  | derivedReplayable
  | derivedDiagnostic
  deriving DecidableEq, Repr

inductive WakePolicy where
  | wakeActor
  | projectionOnly
  deriving DecidableEq, Repr

structure RuntimeEvent where
  runId : String
  eventId : String
  commitOffset : Int
  eventType : String
  eventClass : EventClass
  eventAuthority : EventAuthority
  orderingKey : String
  wakePolicy : WakePolicy
  createdAt : String
  idempotencyKey : Option String := none
  payloadRef : Option String := none
  payloadJson : Option Payload := none
  schemaVersion : String := "1"

structure Action where
  actionId : String
  runId : String
  actionType : String
  effectClass : EffectClass
  externalIdempotencyLevel : Option ExternalIdempotencyLevel := none
  inputJson : Option Payload := none
  policyTags : List String := []
  timeoutMs : Option Int := none

inductive PeerRetryModel where
  | unknown
  | atMostOnce
  | atLeastOnce
  | exactlyOnceClaimed
  deriving DecidableEq, Repr

inductive RetryPolicy where
  | noAutoRetry
  | boundedRetry
  deriving DecidableEq, Repr

structure RemoteServiceIdempotencyContract where
  acceptsDispatchIdempotencyKey : Bool
  returnsStableAck : Bool
  peerRetryModel : PeerRetryModel
  defaultRetryPolicy : RetryPolicy
  deriving DecidableEq, Repr

structure DeclarativeBundleDigest where
  bundleRef : String
  semanticsVersion : String
  contentHash : String
  compileHash : String
  deriving DecidableEq, Repr

structure ExecutionContext where
  runId : String
  actionId : String
  causationId : Option String := none
  correlationId : Option String := none
  lineageId : Option String := none
  capabilitySnapshotRef : Option String := none
  capabilitySnapshotHash : Option String := none
  contextBindingRef : Option String := none
  grantRef : Option String := none
  policySnapshotRef : Option String := none
  ruleBundleHash : Option String := none
  declarativeBundleDigest : Option DeclarativeBundleDigest := none
  timeoutMs : Option Int := none
  budgetRef : Option String := none
  deriving DecidableEq, Repr

inductive FailedStage where
  | admission
  | execution
  | verification
  | reconciliation
  | callback
  deriving DecidableEq, Repr

inductive FailureClass where
  | deterministic
  | transient
  | policy
  | sideEffect
  | unknown
  deriving DecidableEq, Repr

inductive EvidenceSource where
  | externalAckRef
  | evidenceRef
  | localInference
  | none
  deriving DecidableEq, Repr

structure FailureEnvelope where
  runId : String
  actionId : Option String
  failedStage : FailedStage
  failedComponent : String
  failureCode : String
  failureClass : FailureClass
  evidenceRef : Option String := none
  externalAckRef : Option String := none
  localInference : Option String := none
  evidencePrioritySource : EvidenceSource := .none
  evidencePriorityRef : Option String := none
  humanEscalationHint : Option String := none
  deriving DecidableEq, Repr

structure ActionCommit where
  runId : String
  commitId : String
  events : List RuntimeEvent
  createdAt : String
  action : Option Action := none
  causedBy : Option String := none

structure RunPolicyVersions where
  routePolicyVersion : Option String := none
  acceptancePolicyVersion : Option String := none
  memoryPolicyVersion : Option String := none
  skillPolicyVersion : Option String := none
  evaluationPolicyVersion : Option String := none
  taskViewPolicyVersion : Option String := none
  pinnedAt : String := ""
  deriving DecidableEq, Repr

/-- The keywords `RunPolicyVersions` takes. -/
def policyVersionKeys : List String :=
  ["route_policy_version", "acceptance_policy_version", "memory_policy_version",
   "skill_policy_version", "evaluation_policy_version", "task_view_policy_version", "pinned_at"]

structure RunProjection where
  runId : String
  lifecycleState : RunLifecycleState
  projectedOffset : Int
  waitingExternal : Bool
  readyForDispatch : Bool
  currentActionId : Option String := none
  recoveryMode : Option RecoveryMode := none
  recoveryReason : Option String := none
  activeChildRuns : List String := []
  policyVersions : Option RunPolicyVersions := none
  taskContractRef : Option String := none
  deriving DecidableEq, Repr

end AgentKernel
