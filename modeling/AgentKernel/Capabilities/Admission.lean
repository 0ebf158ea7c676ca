import AgentKernel.Lib.Dict
import AgentKernel.Capabilities.Snapshot
import Mathlib.Data.Fintype.EquivFin

/-! What admission looks at, and what the executor then does.

The admission rules ask an action for a tool name, a server, a peer and a risk tier, as
attributes of the action; an `Action` has none of these, so no binding and no risk is ever
checked, and only the run, the type and the snapshot's mode and policy count
(`admission_blind`). The executor takes the tool name, the server and the operation from the
payload. So a snapshot covers what is admitted under it exactly when nothing is
(`admitted_covered_iff`). -/
namespace AgentKernel.Capabilities
open Lib

/-! ### Policies -/

structure TenantPolicy where
  policyId : String
  maxAllowedRiskTier : Int := 3
  allowNonIdempotentRemoteWrites : Bool := false
  maxActionsPerMinute : Int := 120
  deriving DecidableEq, Repr

/-- `TenantPolicyResolver.resolve`, over what reading a policy file gives. -/
def resolvePolicy (resolveFile : String → Except PyError TenantPolicy) (policyRef : String) :
    Except PyError TenantPolicy :=
  if policyRef = "policy:default" then .ok { policyId := "default" }
  else if Text.startsWith policyRef "file://" then resolveFile policyRef
  else .error ⟨.other "PolicyResolutionError",
    "Unknown policy_ref format: " ++ Text.quoted policyRef ++
    ". Supported formats: 'policy:default', 'file:///absolute/path/to/policy.json'."⟩

/-! ### The rules -/

/-- The reasons a rule gives. -/
inductive ReasonCode where
  | ok
  | permissionDenied
  | quotaExceeded
  | policyDenied
  deriving DecidableEq, Repr

structure AdmissionResult where
  admitted : Bool
  reasonCode : ReasonCode
  deriving DecidableEq, Repr

def deny (reason : ReasonCode) : Option AdmissionResult := some ⟨false, reason⟩

/-- `getattr(action, name, None)` for the names the rules ask for. The class declares its
fields as slots, so an action has no others. -/
def getattr (action : Action) (name : String) : Value :=
  if name = "run_id" then .str action.runId
  else if name = "action_type" then .str action.actionType
  else if name = "effect_class" then .str action.effectClass.text
  else .none

/-- `_check_permission_mode`. -/
def checkPermissionMode (action : Action) (snapshot : CapabilitySnapshot) : Option AdmissionResult :=
  if snapshot.permissionMode ∈ ["readonly", "read_only"] then
    match getattr action "action_type" with
    | .str actionType => if actionType ∈ ["noop", "read"] then none else deny .permissionDenied
    | _ => deny .permissionDenied
  else none

/-- A value that is not in a list of texts. -/
def unbound (v : Value) (bindings : List String) : Bool :=
  match v with
  | .str name => name ∉ bindings
  | _ => true

/-- `_check_binding_existence`. -/
def checkBindingExistence (action : Action) (snapshot : CapabilitySnapshot) : Option AdmissionResult :=
  match getattr action "action_type" with
  | .str "tool_call" =>
    match getattr action "tool_name" with
    | .none => none
    | toolName => if unbound toolName snapshot.toolBindings then deny .policyDenied else none
  | .str "mcp_call" =>
    match getattr action "mcp_server", getattr action "mcp_capability" with
    | .none, _ => none
    | _, .none => none
    | server, capability =>
      if server.text ++ "/" ++ capability.text ∈ snapshot.mcpBindings then none
      else deny .policyDenied
  | .str "peer_signal" =>
    if snapshot.peerRunBindings.isEmpty then none
    else
      match getattr action "peer_run_id" with
      | .none => none
      | peerRunId => if unbound peerRunId snapshot.peerRunBindings then deny .policyDenied else none
  | _ => none

/-- `_check_idempotency`. -/
def checkIdempotency (action : Action) (policy : TenantPolicy) : Option AdmissionResult :=
  if policy.allowNonIdempotentRemoteWrites then none
  else
    match getattr action "idempotency_level", getattr action "effect_class" with
    | .str "non_idempotent", effectClass =>
      if effectClass.text ∈ ["remote_write", "irreversible_write"] then deny .policyDenied else none
    | _, _ => none

/-- `getattr(action, "risk_tier", 0) or 0`. -/
def riskTier (action : Action) : Int :=
  match getattr action "risk_tier" with
  | .int tier => tier
  | _ => 0

/-- `_check_risk_tier`. -/
def checkRiskTier (action : Action) (policy : TenantPolicy) : Option AdmissionResult :=
  if riskTier action > policy.maxAllowedRiskTier then deny .policyDenied else none

/-- `_rate_windows`: when actions of a run were admitted, in nanoseconds. -/
abbrev RateWindows := Dict String (List Int)

def sixtySeconds : Int := 60000000000

/-- `_check_rate_limit`, and the windows after it. -/
def checkRateLimit (windows : RateWindows) (now : Int) (action : Action) (policy : TenantPolicy) :
    Option AdmissionResult × RateWindows :=
  let window := ((windows.get? action.runId).getD []).dropWhile (fun t => t < now - sixtySeconds)
  if (window.length : Int) ≥ policy.maxActionsPerMinute then
    (deny .quotaExceeded, windows.set action.runId window)
  else (none, windows.set action.runId (window ++ [now]))

/-- The policy a snapshot is judged by. -/
def policyRefOf (snapshot : CapabilitySnapshot) : String :=
  if snapshot.tenantPolicyRef = "" then "policy:default" else snapshot.tenantPolicyRef

/-- `SnapshotDrivenAdmissionService.admit`: the first rule that denies decides. -/
def evaluateAdmission (resolve : String → Except PyError TenantPolicy) (windows : RateWindows) (now : Int)
    (action : Action) (snapshot : CapabilitySnapshot) : Except PyError (AdmissionResult × RateWindows) :=
  match resolve (policyRefOf snapshot) with
  | .error e => .error e
  | .ok policy =>
    match checkPermissionMode action snapshot with
    | some result => .ok (result, windows)
    | none =>
      match checkBindingExistence action snapshot with
      | some result => .ok (result, windows)
      | none =>
        match checkIdempotency action policy with
        | some result => .ok (result, windows)
        | none =>
          match checkRiskTier action policy with
          | some result => .ok (result, windows)
          | none =>
            match checkRateLimit windows now action policy with
            | (some result, windows) => .ok (result, windows)
            | (none, windows) => .ok (⟨true, .ok⟩, windows)

/-! ### The executor -/

structure ToolActivityInput where
  runId : String
  actionId : String
  toolName : String
  arguments : Payload

structure MCPActivityInput where
  runId : String
  actionId : String
  serverName : String
  operation : String
  arguments : Payload

/-- What the gateway is asked to do. -/
inductive Activity where
  | tool (input : ToolActivityInput)
  | mcp (input : MCPActivityInput)

inductive ActivityExecutionRoute where
  | tool
  | mcp
  deriving DecidableEq, Repr

def payloadOf (action : Action) : Payload := action.inputJson.getD []

/-- `_resolve_activity_execution_route`. -/
def resolveActivityExecutionRoute (action : Action) : ActivityExecutionRoute :=
  if (Value.field (payloadOf action) "mcp").dict?.isSome then .mcp
  else if action.actionType = "mcp" ∨ Text.startsWith action.actionType "mcp." then .mcp
  else .tool

/-- `_build_tool_activity_input`. -/
def buildToolActivityInput (action : Action) : ToolActivityInput :=
  let payload := payloadOf action
  { runId := action.runId
    actionId := action.actionId
    toolName := (firstNonEmptyOptionalString
      [Value.field payload "tool_name", Value.field payload "name"]).getD action.actionType
    arguments := ((Value.field payload "arguments").dict?).getD payload }

/-- `_build_mcp_activity_input`. -/
def buildMcpActivityInput (action : Action) : MCPActivityInput :=
  let payload := payloadOf action
  let mcp := asDict (Value.field payload "mcp")
  { runId := action.runId
    actionId := action.actionId
    serverName := (firstNonEmptyOptionalString
      [Value.field mcp "server_name", Value.field mcp "server_id",
       Value.field payload "server_name", Value.field payload "server_id"]).getD "default_mcp_server"
    operation := (firstNonEmptyOptionalString
      [Value.field mcp "operation", Value.field mcp "capability_id", Value.field mcp "name",
       Value.field payload "operation", Value.field payload "capability_id"]).getD action.actionType
    arguments := ((Value.field mcp "arguments").dict?).getD
      (asDict (Value.field payload "arguments")) }

/-- The activity `ActivityBackedExecutorService.execute` asks for. -/
def execute (action : Action) : Activity :=
  match resolveActivityExecutionRoute action with
  | .mcp => .mcp (buildMcpActivityInput action)
  | .tool => .tool (buildToolActivityInput action)

/-! ### Coverage -/

/-- The snapshot binds what the activity does. -/
def Binding (snapshot : CapabilitySnapshot) : Activity → Prop
  | .tool input => input.toolName ∈ snapshot.toolBindings
  | .mcp input => input.serverName ++ "/" ++ input.operation ∈ snapshot.mcpBindings

/-- The snapshot allows the action what its execution does. -/
def Covered (snapshot : CapabilitySnapshot) (action : Action) : Prop :=
  Binding snapshot (execute action) ∧
    (snapshot.permissionMode = "readonly" → action.effectClass = .readOnly)

/-- Nothing is admitted under the snapshot: its policy is not found, or allows no risk at all, or
no action a minute. -/
def Shut (resolve : String → Except PyError TenantPolicy) (snapshot : CapabilitySnapshot) : Prop :=
  ∀ policy, resolve (policyRefOf snapshot) = .ok policy →
    policy.maxAllowedRiskTier < 0 ∨ policy.maxActionsPerMinute ≤ 0

/-! ### What admission sees -/

/-- No rule finds what it would check a binding against. -/
theorem checkBindingExistence_none (action : Action) (snapshot : CapabilitySnapshot) :
    checkBindingExistence action snapshot = none := by
  have htool : getattr action "tool_name" = .none := rfl
  have hserver : getattr action "mcp_server" = .none := rfl
  have hpeer : getattr action "peer_run_id" = .none := rfl
  unfold checkBindingExistence
  rw [htool, hserver, hpeer]
  split
  · rfl
  · rfl
  · split <;> rfl
  · rfl

theorem checkIdempotency_none (action : Action) (policy : TenantPolicy) :
    checkIdempotency action policy = none := by
  have hlevel : getattr action "idempotency_level" = .none := rfl
  unfold checkIdempotency
  rw [hlevel]
  split <;> rfl

theorem checkRiskTier_none_iff (action : Action) (policy : TenantPolicy) :
    checkRiskTier action policy = none ↔ 0 ≤ policy.maxAllowedRiskTier := by
  have htier : riskTier action = 0 := rfl
  unfold checkRiskTier
  rw [htier]
  by_cases hrisk : 0 > policy.maxAllowedRiskTier
  · rw [if_pos hrisk]
    exact iff_of_false (Option.some_ne_none _) (not_le.mpr hrisk)
  · rw [if_neg hrisk]
    exact iff_of_true rfl (not_lt.mp hrisk)

theorem checkPermissionMode_denies {action : Action} {snapshot : CapabilitySnapshot} {result : AdmissionResult}
    (h : checkPermissionMode action snapshot = some result) : result.admitted = false := by
  unfold checkPermissionMode at h
  split at h
  · have htype : getattr action "action_type" = .str action.actionType := rfl
    rw [htype] at h
    simp only at h
    split at h
    · cases h
    · rw [← Option.some.inj h]
  · cases h

theorem checkRiskTier_denies {action : Action} {policy : TenantPolicy} {result : AdmissionResult}
    (h : checkRiskTier action policy = some result) : result.admitted = false := by
  unfold checkRiskTier at h
  split at h
  · rw [← Option.some.inj h]
  · cases h

/-- A run that was never asked for is refused by a quota of none only. -/
theorem checkRateLimit_new {windows : RateWindows} {action : Action} (hnew : action.runId ∉ windows.keys)
    (now : Int) (policy : TenantPolicy) :
    (checkRateLimit windows now action policy).1 = none ↔ 0 < policy.maxActionsPerMinute := by
  have hwindow := (windows.get?_eq_none_iff action.runId).mpr hnew
  unfold checkRateLimit
  simp only [hwindow, Option.getD_none, List.dropWhile_nil, List.length_nil, Int.natCast_zero]
  split
  · rename_i hquota
    exact iff_of_false (Option.some_ne_none _) (not_lt.mpr hquota)
  · rename_i hquota
    exact iff_of_true rfl (not_le.mp hquota)

theorem checkRateLimit_quota {windows : RateWindows} {now : Int} {action : Action} {policy : TenantPolicy}
    (h : (checkRateLimit windows now action policy).1 = none) : 0 < policy.maxActionsPerMinute := by
  unfold checkRateLimit at h
  simp only at h
  split at h
  · exact absurd h (Option.some_ne_none _)
  · rename_i hquota
    omega

theorem checkRateLimit_denies {windows : RateWindows} {now : Int} {action : Action} {policy : TenantPolicy}
    {result : AdmissionResult} (h : (checkRateLimit windows now action policy).1 = some result) :
    result.admitted = false := by
  unfold checkRateLimit at h
  simp only at h
  split at h
  · rw [← Option.some.inj h]
  · cases h

/-- **When an action is admitted**: mode, risk and quota are all that is asked. -/
theorem admitted_iff (resolve : String → Except PyError TenantPolicy) (windows : RateWindows) (now : Int)
    (action : Action) (snapshot : CapabilitySnapshot) :
    (∃ result windows', evaluateAdmission resolve windows now action snapshot = .ok (result, windows') ∧
        result.admitted = true) ↔
      ∃ policy, resolve (policyRefOf snapshot) = .ok policy ∧ checkPermissionMode action snapshot = none ∧
        0 ≤ policy.maxAllowedRiskTier ∧ (checkRateLimit windows now action policy).1 = none := by
  unfold evaluateAdmission
  cases hresolve : resolve (policyRefOf snapshot) with
  | error e => simp
  | ok policy =>
    simp only [checkBindingExistence_none, checkIdempotency_none, Except.ok.injEq, exists_eq_left',
      ← checkRiskTier_none_iff action policy]
    cases hmode : checkPermissionMode action snapshot with
    | some result => simp [checkPermissionMode_denies hmode]
    | none =>
      cases hrisk : checkRiskTier action policy with
      | some result => simp [checkRiskTier_denies hrisk]
      | none =>
        cases hrate : checkRateLimit windows now action policy with
        | mk denied windows' =>
          cases denied with
          | some result =>
            have hdenied : (checkRateLimit windows now action policy).1 = some result := by rw [hrate]
            simp [checkRateLimit_denies hdenied]
          | none => simp

/-- **Admission is blind to what is executed.** Two actions of one run and type are
admitted alike under any two snapshots of one mode and policy. -/
theorem admission_blind (resolve : String → Except PyError TenantPolicy) (windows : RateWindows) (now : Int)
    {a b : Action} {s t : CapabilitySnapshot} (hrun : a.runId = b.runId)
    (htype : a.actionType = b.actionType) (hmode : s.permissionMode = t.permissionMode)
    (hpolicy : s.tenantPolicyRef = t.tenantPolicyRef) :
    evaluateAdmission resolve windows now a s = evaluateAdmission resolve windows now b t := by
  have hpermission : checkPermissionMode a s = checkPermissionMode b t := by
    have hattribute : getattr a "action_type" = getattr b "action_type" := congrArg Value.str htype
    unfold checkPermissionMode
    rw [hmode, hattribute]
  have hrate : ∀ policy, checkRateLimit windows now a policy = checkRateLimit windows now b policy := by
    intro policy
    unfold checkRateLimit
    rw [hrun]
  have hrisk : ∀ policy, checkRiskTier a policy = checkRiskTier b policy := fun _ => rfl
  have href : policyRefOf s = policyRefOf t := by rw [policyRefOf, policyRefOf, hpolicy]
  unfold evaluateAdmission
  simp only [href, hpermission, checkBindingExistence_none, checkIdempotency_none, hrate, hrisk]

/-- A text that is not in the list, and not empty. -/
theorem exists_fresh (texts : List String) : ∃ s, s ≠ "" ∧ s ∉ texts := by
  obtain ⟨s, hs⟩ := Infinite.exists_notMem_finset ("" :: texts).toFinset
  rw [List.mem_toFinset, List.mem_cons, not_or] at hs
  exact ⟨s, hs⟩

/-- An action that every mode admits, and that calls the tool it names. -/
def reading (runId toolName : String) : Action :=
  { actionId := "act"
    runId := runId
    actionType := "read"
    effectClass := .readOnly
    inputJson := some [("tool_name", .str toolName)] }

theorem execute_reading (runId : String) {toolName : String} (h : toolName ≠ "") :
    ∃ input, execute (reading runId toolName) = .tool input ∧ input.toolName = toolName := by
  have hmcp : (Value.field (payloadOf (reading runId toolName)) "mcp").dict? = none := rfl
  have htype : ¬ ((reading runId toolName).actionType = "mcp" ∨
      Text.startsWith (reading runId toolName).actionType "mcp." = true) := by
    show ¬ ("read" = "mcp" ∨ Text.startsWith "read" "mcp." = true)
    decide +kernel
  have hroute : resolveActivityExecutionRoute (reading runId toolName) = .tool := by
    rw [resolveActivityExecutionRoute, hmcp, Option.isSome_none, if_neg Bool.false_ne_true, if_neg htype]
  refine ⟨buildToolActivityInput (reading runId toolName), by rw [execute, hroute], ?_⟩
  have hname : Value.field (payloadOf (reading runId toolName)) "tool_name" = .str toolName := rfl
  simp [buildToolActivityInput, firstNonEmptyOptionalString, hname, Value.nonEmpty?, h]

theorem checkPermissionMode_reading (runId toolName : String) (snapshot : CapabilitySnapshot) :
    checkPermissionMode (reading runId toolName) snapshot = none := by
  have htype : getattr (reading runId toolName) "action_type" = .str "read" := rfl
  unfold checkPermissionMode
  rw [htype]
  split <;> rfl

/-- **Admission does not govern what is executed.** Whatever the service has admitted before, a
snapshot covers all that is admitted under it exactly when nothing is; and whatever the payload
and the effect class of an action and the bindings of the snapshot are changed to, the answer
stays the same. -/
theorem admitted_covered_iff (resolve : String → Except PyError TenantPolicy) (windows : RateWindows)
    (now : Int) (snapshot : CapabilitySnapshot) :
    ((∀ action result windows', evaluateAdmission resolve windows now action snapshot = .ok (result, windows') →
        result.admitted = true → Covered snapshot action) ↔ Shut resolve snapshot) ∧
      ∀ (action : Action) inputJson effectClass toolBindings mcpBindings peerRunBindings,
        evaluateAdmission resolve windows now
          { action with inputJson := inputJson, effectClass := effectClass }
          { snapshot with
            toolBindings := toolBindings
            mcpBindings := mcpBindings
            peerRunBindings := peerRunBindings } = evaluateAdmission resolve windows now action snapshot := by
  refine ⟨⟨fun hcovered policy hresolve => ?_, fun hshut action result windows' hanswer hadmitted => ?_⟩,
    fun action _ _ _ _ _ => admission_blind resolve windows now rfl rfl rfl rfl⟩
  · by_contra hopen
    obtain ⟨hrisk, hquota⟩ := not_or.mp hopen
    -- a run without admissions, and a tool that is not bound
    obtain ⟨runId, _, hrun⟩ := exists_fresh windows.keys
    obtain ⟨toolName, hname, hunbound⟩ := exists_fresh snapshot.toolBindings
    have hnew : (reading runId toolName).runId ∉ windows.keys := hrun
    have hrate := (checkRateLimit_new hnew now policy).mpr (not_le.mp hquota)
    obtain ⟨result, windows', hanswer, hadmitted⟩ :=
      (admitted_iff resolve windows now (reading runId toolName) snapshot).mpr
        ⟨policy, hresolve, checkPermissionMode_reading runId toolName snapshot, not_lt.mp hrisk, hrate⟩
    have hbinding := (hcovered _ result windows' hanswer hadmitted).1
    obtain ⟨input, hexecute, htool⟩ := execute_reading runId hname
    rw [hexecute] at hbinding
    exact hunbound (htool ▸ hbinding)
  · obtain ⟨policy, hresolve, _, hrisk, hrate⟩ :=
      (admitted_iff resolve windows now action snapshot).mp ⟨result, windows', hanswer, hadmitted⟩
    have hquota := checkRateLimit_quota hrate
    rcases hshut policy hresolve with hnoRisk | hnoQuota
    · exact absurd hrisk (not_le.mpr hnoRisk)
    · exact absurd hquota (not_lt.mpr hnoQuota)

namespace Sample

/-- A call of a named tool. -/
def toolCall (name : String) : Action :=
  { actionId := "act"
    runId := "run"
    actionType := "tool_call"
    effectClass := .readOnly
    inputJson := some [("tool_name", .str name)] }

/-- An action of a type that is admitted read-only, with a tool of its own. -/
def readWriting : Action :=
  { toolCall "write" with
    actionType := "read"
    effectClass := .irreversibleWrite }

/-- A snapshot that binds one tool. -/
def binding (permissionMode tool : String) : CapabilitySnapshot :=
  { snapshotRef := "snapshot"
    snapshotHash := ""
    runId := "run"
    basedOnOffset := 1
    tenantPolicyRef := "policy:default"
    permissionMode := permissionMode
    toolBindings := [tool]
    mcpBindings := []
    skillBindings := []
    featureFlags := [] }

/-- A resolver without policy files. -/
def resolve : String → Except PyError TenantPolicy :=
  resolvePolicy (fun _ => .error ⟨.other "PolicyResolutionError", ""⟩)

end Sample

/-- A tool that is not bound is admitted and executed, and so is an irreversible write in
a read-only snapshot. -/
theorem unbound_tool_admitted :
    evaluateAdmission Sample.resolve Dict.empty 0 (Sample.toolCall "shell") (Sample.binding "strict" "read") =
        .ok (⟨true, .ok⟩, Dict.empty.set "run" [0]) ∧
      ¬ Covered (Sample.binding "strict" "read") (Sample.toolCall "shell") ∧
    evaluateAdmission Sample.resolve Dict.empty 0 Sample.readWriting (Sample.binding "readonly" "write") =
        .ok (⟨true, .ok⟩, Dict.empty.set "run" [0]) ∧
      ¬ Covered (Sample.binding "readonly" "write") Sample.readWriting := by
  refine ⟨rfl, ?_, rfl, ?_⟩
  · intro h
    have hbound : "shell" ∈ ["read"] := h.1
    exact absurd hbound (by decide)
  · intro h
    exact absurd (h.2 rfl) (by decide)

end AgentKernel.Capabilities
