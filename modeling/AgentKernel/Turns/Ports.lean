import AgentKernel.Dedupe.Store
import AgentKernel.Turns.Keys

/-! What a turn engine asks of its ports, and how it reads their answers.

The snapshot builder, the input resolver, the reasoning loop, the admission service
and the executor are arbitrary: a `Ports` value is how all of them behave while one
step of a turn runs, and every step may come with another one. -/
namespace AgentKernel.Turns
open Lib Dedupe IdempotencyKeyPolicy

/-! ### How a call ends -/

/-- What a call raises: an `Exception`, or a `BaseException` that is none, such as
`CancelledError`, which `except Exception` lets through. -/
inductive Raised where
  | exception (e : PyError)
  | exit (name : String)
  deriving DecidableEq, Repr

/-- How an awaited call ends. `timedOut` is the phase's deadline passing first: the
call is cancelled by `asyncio.wait_for`. -/
inductive Awaited (α : Type) where
  | returned (a : α)
  | raised (r : Raised)
  | timedOut

/-- What `asyncio.wait_for` raises when the deadline passes. -/
def timeoutError : PyError := ⟨.other "TimeoutError", ""⟩

/-! ### Snapshots -/

structure CapabilitySnapshotInput where
  runId : String
  basedOnOffset : Int
  tenantPolicyRef : String
  permissionMode : String
  toolBindings : List Value := []
  mcpBindings : List Value := []
  skillBindings : List Value := []
  featureFlags : List Value := []
  contextBindingRef : Value := .none
  contextContentHash : Value := .none
  budgetRef : Value := .none
  quotaRef : Value := .none
  sessionMode : Value := .none
  approvalState : Value := .none
  peerRunBindings : List String := []

structure CapabilitySnapshot where
  snapshotRef : String
  snapshotHash : String
  contextBindingRef : Option String := none
  budgetRef : Option String := none
  declarativeBundleDigest : Option DeclarativeBundleDigest := none
  snapshotSchemaVersion : String := "1"
  peerRunBindings : List String := []
  deriving DecidableEq, Repr

def currentSnapshotSchemaVersion : String := "1"

def assertSnapshotCompatible (snapshot : CapabilitySnapshot) : Except Raised Unit :=
  if snapshot.snapshotSchemaVersion ≠ currentSnapshotSchemaVersion then
    .error (.exception ⟨.valueError,
      "CapabilitySnapshot schema_version=" ++ Text.quoted snapshot.snapshotSchemaVersion ++
      " is incompatible with the current kernel version (" ++
      Text.quoted currentSnapshotSchemaVersion ++
      "). Rebuild the snapshot using CapabilitySnapshotBuilder."⟩)
  else .ok ()

/-! ### Admission -/

/-- What an admission result may carry as its envelope. -/
inductive EnvelopePayload where
  | envelope (e : IdempotencyEnvelope)
  | value (v : Value)

/-- The attributes of an admission result that the engine reads (`None` where it has
none) and what `bool()` gives on it. -/
structure AdmissionObject where
  admitted : Value := .none
  grantRef : Value := .none
  policySnapshotRef : Value := .none
  idempotencyEnvelope : EnvelopePayload := .value .none
  truth : Except Raised Bool := .ok true

inductive AdmissionValue where
  | awaitable
  | bool (b : Bool)
  | object (o : AdmissionObject)

def isAdmitted : AdmissionValue → Except Raised Bool
  | .awaitable =>
    .error (.exception ⟨.typeError, "Admission result must be awaited before admission check."⟩)
  | .bool b => .ok b
  | .object o =>
    match o.admitted with
    | .bool b => .ok b
    | _ => o.truth

/-- `getattr(admission_result, name, None)`, for the attributes of a result object. -/
def AdmissionValue.attribute (read : AdmissionObject → Value) : AdmissionValue → Value
  | .object o => read o
  | _ => .none

def AdmissionValue.envelopePayload : AdmissionValue → EnvelopePayload
  | .object o => o.idempotencyEnvelope
  | _ => .value .none

/-! ### Execution -/

/-- What `executor.execute` is called with. -/
structure ExecutorCall where
  action : Action
  snapshot : CapabilitySnapshot
  envelope : IdempotencyEnvelope
  executionContext : Option ExecutionContext

/-- A dictionary the executor returned, and what `bool()` gives on objects in it. -/
structure ExecuteResult where
  items : Payload
  boolOf : String → Except PyError Bool := fun _ => .ok true

/-- `bool(execute_result.get("acknowledged", False))`. -/
def ExecuteResult.acknowledged (r : ExecuteResult) : Except PyError Bool :=
  ((r.items.lookup "acknowledged").getD (.bool false)).truth r.boolOf

/-! ### The ports -/

structure ReasoningRequest where
  runId : String
  snapshot : CapabilitySnapshot
  history : List Value
  modelRef : String
  idempotencyKey : String

structure Ports where
  resolve : TurnInput → Action → Except Raised CapabilitySnapshotInput
  /-- `list()` of an object. -/
  iterate : String → Except Raised (List Value)
  build : CapabilitySnapshotInput → Except Raised CapabilitySnapshot
  /-- The actions of the reasoning result. -/
  runOnce : ReasoningRequest → Awaited (List Action)
  evaluateAdmission : Action → CapabilitySnapshot → Awaited AdmissionValue
  execute : ExecutorCall → Awaited ExecuteResult
  utcNowIso : String

/-! ### Snapshot input -/

def notIterable (typeName : String) : Raised :=
  .exception ⟨.typeError, "'" ++ typeName ++ "' object is not iterable"⟩

/-- `list(value)`. -/
def listOf (iterate : String → Except Raised (List Value)) : Value → Except Raised (List Value)
  | .list items => .ok items
  | .dict items => .ok (items.map (fun e => .str e.1))
  | .str s => .ok (s.toList.map (fun c => .str (String.singleton c)))
  | .object repr => iterate repr
  | .none => .error (notIterable "NoneType")
  | .bool _ => .error (notIterable "bool")
  | .int _ => .error (notIterable "int")
  | .float _ => .error (notIterable "float")

/-- `_resolve_snapshot_input` without a resolver. -/
def declaredSnapshotInput (iterate : String → Except Raised (List Value)) (input : TurnInput)
    (action : Action) (requireDeclared : Bool) : Except Raised CapabilitySnapshotInput :=
  match (Value.field (action.inputJson.getD []) "capability_snapshot_input").dict? with
  | some declared => do
    let toolBindings ← listOf iterate ((declared.lookup "tool_bindings").getD (.list []))
    let mcpBindings ← listOf iterate ((declared.lookup "mcp_bindings").getD (.list []))
    let skillBindings ← listOf iterate ((declared.lookup "skill_bindings").getD (.list []))
    let featureFlags ← listOf iterate ((declared.lookup "feature_flags").getD (.list []))
    .ok
      { runId := input.runId
        basedOnOffset := input.basedOnOffset
        tenantPolicyRef := ((declared.lookup "tenant_policy_ref").getD (.str "")).text
        permissionMode := ((declared.lookup "permission_mode").getD (.str "")).text
        toolBindings := toolBindings
        mcpBindings := mcpBindings
        skillBindings := skillBindings
        featureFlags := featureFlags
        contextBindingRef := Value.field declared "context_binding_ref"
        contextContentHash := Value.field declared "context_content_hash"
        budgetRef := Value.field declared "budget_ref"
        quotaRef := Value.field declared "quota_ref"
        sessionMode := Value.field declared "session_mode"
        approvalState := Value.field declared "approval_state" }
  | none =>
    if requireDeclared then
      .error (.exception ⟨.capabilitySnapshotBuildError,
        "capability_snapshot_input is required in strict mode."⟩)
    else
      .ok
        { runId := input.runId
          basedOnOffset := input.basedOnOffset
          tenantPolicyRef := "policy:default"
          permissionMode := "strict" }

end AgentKernel.Turns
