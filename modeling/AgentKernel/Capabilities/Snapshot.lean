import AgentKernel.Lib.Json
import AgentKernel.Turns.Keys

/-! Capability snapshots, from the payload an action declares.

The resolver reads what governs an action from its payload, nested or flat; the builder
normalises the lists and freezes them under a hash. A binding list of the payload
survives both as the sorted list of its names, unless the resolver never asks for it:
it reads no peer runs, feature flags only where they are flat, and lets no approval
state restrict the permission mode (`governance_survives_iff`). -/
namespace AgentKernel.Capabilities
open Lib
open Turns (TurnInput Digest)

def buildError (message : String) : PyError := ⟨.capabilitySnapshotBuildError, message⟩

/-! ### The builder -/

structure CapabilitySnapshotInput where
  runId : String
  basedOnOffset : Int
  tenantPolicyRef : String
  permissionMode : String
  toolBindings : List String := []
  mcpBindings : List String := []
  skillBindings : List String := []
  featureFlags : List String := []
  contextBindingRef : Option String := none
  contextContentHash : Option String := none
  budgetRef : Option String := none
  quotaRef : Option String := none
  sessionMode : Option String := none
  approvalState : Option String := none
  declarativeBundleDigest : Option DeclarativeBundleDigest := none
  peerRunBindings : List String := []

structure CapabilitySnapshot where
  snapshotRef : String
  snapshotHash : String
  runId : String
  basedOnOffset : Int
  tenantPolicyRef : String
  permissionMode : String
  toolBindings : List String
  mcpBindings : List String
  skillBindings : List String
  featureFlags : List String
  contextBindingRef : Option String := none
  contextContentHash : Option String := none
  budgetRef : Option String := none
  quotaRef : Option String := none
  sessionMode : Option String := none
  approvalState : Option String := none
  declarativeBundleDigest : Option DeclarativeBundleDigest := none
  createdAt : String := ""
  snapshotSchemaVersion : String := "1"
  peerRunBindings : List String := []
  deriving DecidableEq, Repr

/-- Whether an optional text counts as true. -/
def given (s : Option String) : Bool := (Text.orElse s none).isSome

/-- `_validate_input`. -/
def validateInput (i : CapabilitySnapshotInput) : Except PyError Unit :=
  if i.runId = "" then .error (buildError "run_id is required.")
  else if i.basedOnOffset < 0 then .error (buildError "based_on_offset must be >= 0.")
  else if i.tenantPolicyRef = "" then .error (buildError "tenant_policy_ref is required.")
  else if i.permissionMode = "" then .error (buildError "permission_mode is required.")
  else if given i.contextBindingRef ∧ ¬ given i.contextContentHash then
    .error (buildError "context_content_hash is required when context_binding_ref is set.")
  else .ok ()

/-- `_normalize_string_list`. -/
def normalizeStringList (values : List String) : List String :=
  Text.sortedSet (values.filter (fun value => value ≠ ""))

def textOrNone (s : Option String) : Value := (s.map Value.str).getD .none

/-- `_normalize_bundle_digest`. -/
def normalizeBundleDigest : Option DeclarativeBundleDigest → Value
  | none => .none
  | some digest => .dict
    [("bundle_ref", .str digest.bundleRef), ("semantics_version", .str digest.semanticsVersion),
     ("content_hash", .str digest.contentHash), ("compile_hash", .str digest.compileHash)]

def textList (values : List String) : Value := .list (values.map .str)

/-- What the hash is taken of. -/
def canonicalPayload (i : CapabilitySnapshotInput) : Payload :=
  [("snapshot_schema_version", .str "1"),
   ("run_id", .str i.runId),
   ("based_on_offset", .int i.basedOnOffset),
   ("tenant_policy_ref", .str i.tenantPolicyRef),
   ("permission_mode", .str i.permissionMode),
   ("tool_bindings", textList (normalizeStringList i.toolBindings)),
   ("mcp_bindings", textList (normalizeStringList i.mcpBindings)),
   ("skill_bindings", textList (normalizeStringList i.skillBindings)),
   ("feature_flags", textList (normalizeStringList i.featureFlags)),
   ("context_content_hash", textOrNone i.contextContentHash),
   ("budget_ref", textOrNone i.budgetRef),
   ("quota_ref", textOrNone i.quotaRef),
   ("session_mode", textOrNone i.sessionMode),
   ("approval_state", textOrNone i.approvalState),
   ("declarative_bundle_digest", normalizeBundleDigest i.declarativeBundleDigest),
   ("peer_run_bindings", textList (normalizeStringList i.peerRunBindings))]

/-- `_build_stable_sha256`. -/
def buildStableSha256 (H : Digest) (payload : Payload) : String :=
  H.hexdigest (Value.dict payload).jsonPlain

/-- `CapabilitySnapshotBuilder.build`. -/
def build (H : Digest) (now : String) (i : CapabilitySnapshotInput) : Except PyError CapabilitySnapshot :=
  match validateInput i with
  | .error e => .error e
  | .ok () =>
    let snapshotHash := buildStableSha256 H (canonicalPayload i)
    .ok
      { snapshotRef := "snapshot:" ++ i.runId ++ ":" ++ toString i.basedOnOffset ++ ":" ++
          String.ofList (snapshotHash.toList.take 12)
        snapshotHash := snapshotHash
        runId := i.runId
        basedOnOffset := i.basedOnOffset
        tenantPolicyRef := i.tenantPolicyRef
        permissionMode := i.permissionMode
        toolBindings := normalizeStringList i.toolBindings
        mcpBindings := normalizeStringList i.mcpBindings
        skillBindings := normalizeStringList i.skillBindings
        featureFlags := normalizeStringList i.featureFlags
        contextBindingRef := i.contextBindingRef
        contextContentHash := i.contextContentHash
        budgetRef := i.budgetRef
        quotaRef := i.quotaRef
        sessionMode := i.sessionMode
        approvalState := i.approvalState
        declarativeBundleDigest := i.declarativeBundleDigest
        createdAt := now
        snapshotSchemaVersion := "1"
        peerRunBindings := normalizeStringList i.peerRunBindings }

/-! ### The resolver -/

/-- `_as_dict`. -/
def asDict (value : Value) : Payload := value.dict?.getD []

/-- `_as_str_list`. -/
def asStrList : Value → List String
  | .list items => items.filterMap Value.nonEmpty?
  | _ => []

/-- `_first_non_empty_optional_string`. -/
def firstNonEmptyOptionalString (values : List Value) : Option String :=
  values.findSome? Value.nonEmpty?

/-- `_first_non_empty_string`. -/
def firstNonEmptyString (values : List Value) : String :=
  (firstNonEmptyOptionalString values).getD ""

/-- The fields of a digest that are there. -/
def digestFields (payload digestPayload : Payload) : List (String × Option String) :=
  [("bundle_ref", firstNonEmptyOptionalString
      [Value.field digestPayload "bundle_ref", Value.field payload "declarative_bundle_ref"]),
   ("semantics_version", firstNonEmptyOptionalString
      [Value.field digestPayload "semantics_version",
       Value.field payload "declarative_bundle_semantics_version"]),
   ("content_hash", firstNonEmptyOptionalString
      [Value.field digestPayload "content_hash",
       Value.field payload "declarative_bundle_content_hash"]),
   ("compile_hash", firstNonEmptyOptionalString
      [Value.field digestPayload "compile_hash",
       Value.field payload "declarative_bundle_compile_hash"])]

/-- Neither an object nor `None`. -/
def illTyped : Value → Bool
  | .none | .dict _ => false
  | _ => true

/-- `_resolve_declarative_bundle_digest`. -/
def resolveDeclarativeBundleDigest (payload : Payload) :
    Except PyError (Option DeclarativeBundleDigest) :=
  let raw := Value.field payload "declarative_bundle_digest"
  if illTyped raw then
    .error (buildError "declarative_bundle_digest must be an object when provided.")
  else
    let fields := digestFields payload (asDict raw)
    let missing := (fields.filter (fun field => field.2 = none)).map Prod.fst
    if fields.all (fun field => field.2 = none) then .ok none
    else if missing.isEmpty = false then
      .error (buildError ("declarative_bundle_digest is missing required fields: " ++
        ", ".intercalate missing ++ "."))
    else
      let read := fun key => ((fields.lookup key).getD none).getD ""
      .ok (some
        { bundleRef := read "bundle_ref"
          semanticsVersion := read "semantics_version"
          contentHash := read "content_hash"
          compileHash := read "compile_hash" })

/-- `ActionPayloadCapabilitySnapshotInputResolver`. -/
structure Resolver where
  defaultTenantPolicyRef : String := "policy:default"
  defaultPermissionMode : String := "strict"
  requireDeclaredSnapshotInput : Bool := false
  requireDeclarativeBundleDigest : Bool := false

/-- A binding list, from the nested entry if there is one. -/
def boundNames (payload : Payload) (key : String) : List String :=
  asStrList (((asDict (Value.field payload "capability_bindings")).lookup key).getD
    ((payload.lookup key).getD (.list [])))

/-- The input a payload declares, with its digest. -/
def Resolver.declaredInput (resolver : Resolver) (input : TurnInput) (payload : Payload)
    (digest : Option DeclarativeBundleDigest) : CapabilitySnapshotInput :=
  let policy := asDict (Value.field payload "policy")
  let approval := asDict (Value.field payload "approval")
  let budget := asDict (Value.field payload "budget")
  let session := asDict (Value.field payload "session")
  let context := asDict (Value.field payload "context")
  { runId := input.runId
    basedOnOffset := input.basedOnOffset
    tenantPolicyRef := firstNonEmptyString
      [Value.field policy "tenant_policy_ref", Value.field payload "tenant_policy_ref",
       .str resolver.defaultTenantPolicyRef]
    permissionMode := firstNonEmptyString
      [Value.field policy "permission_mode", Value.field payload "permission_mode",
       .str resolver.defaultPermissionMode]
    toolBindings := boundNames payload "tool_bindings"
    mcpBindings := boundNames payload "mcp_bindings"
    skillBindings := boundNames payload "skill_bindings"
    featureFlags := asStrList ((payload.lookup "feature_flags").getD (.list []))
    contextBindingRef := firstNonEmptyOptionalString
      [Value.field context "context_binding_ref", Value.field payload "context_binding_ref"]
    contextContentHash := firstNonEmptyOptionalString
      [Value.field context "context_content_hash", Value.field payload "context_content_hash"]
    budgetRef := firstNonEmptyOptionalString
      [Value.field budget "budget_ref", Value.field payload "budget_ref"]
    quotaRef := firstNonEmptyOptionalString
      [Value.field budget "quota_ref", Value.field payload "quota_ref"]
    sessionMode := firstNonEmptyOptionalString
      [Value.field session "session_mode", Value.field payload "session_mode"]
    approvalState := firstNonEmptyOptionalString
      [Value.field approval "approval_state", Value.field payload "approval_state"]
    declarativeBundleDigest := digest }

def Resolver.resolve (resolver : Resolver) (input : TurnInput) (action : Action) :
    Except PyError CapabilitySnapshotInput :=
  let raw := Value.field (action.inputJson.getD []) "capability_snapshot_input"
  if resolver.requireDeclaredSnapshotInput ∧ raw.dict? = none then
    .error (buildError "capability_snapshot_input is required in strict mode.")
  else
    match resolveDeclarativeBundleDigest (asDict raw) with
    | .error e => .error e
    | .ok digest =>
      if resolver.requireDeclarativeBundleDigest ∧ digest = none then
        .error (buildError "declarative_bundle_digest is required in strict mode.")
      else .ok (resolver.declaredInput input (asDict raw) digest)

/-! ### What the payload declares -/

/-- The nested entry of a binding list. -/
def nestedEntry (payload : Payload) (key : String) : Option Value :=
  (asDict (Value.field payload "capability_bindings")).lookup key

/-- The value holds a list, and the text is in it. -/
def Lists (v : Value) (name : String) : Prop := name ≠ "" ∧ ∃ items, v = .list items ∧ .str name ∈ items

/-- The payload binds the name: its nested entry does, or its flat one where there is no
nested entry. -/
def Binds (payload : Payload) (key name : String) : Prop :=
  Lists ((nestedEntry payload key).getD (Value.field payload key)) name

/-- The names the payload binds under a key, in order and each once. -/
def BoundBy (payload : Payload) (key : String) (names : List String) : Prop :=
  Text.Sorted names ∧ ∀ name, name ∈ names ↔ Binds payload key name

def restrictedStates : List String := ["pending", "denied", "revoked", "expired"]

/-- The snapshot says what the payload declared. -/
structure GovernanceSurvives (payload : Payload) (snapshot : CapabilitySnapshot) : Prop where
  tools : BoundBy payload "tool_bindings" snapshot.toolBindings
  mcp : BoundBy payload "mcp_bindings" snapshot.mcpBindings
  skills : BoundBy payload "skill_bindings" snapshot.skillBindings
  flags : BoundBy payload "feature_flags" snapshot.featureFlags
  peers : BoundBy payload "peer_run_bindings" snapshot.peerRunBindings
  approval : ∀ state ∈ restrictedStates, snapshot.approvalState = some state →
    snapshot.permissionMode = "readonly"

/-- The payload asks for nothing the resolver drops. -/
structure AsksNothingDropped (resolver : Resolver) (payload : Payload) : Prop where
  peers : ∀ name, ¬ Binds payload "peer_run_bindings" name
  flags : ∀ entry, nestedEntry payload "feature_flags" = some entry →
    ∀ name, Lists entry name ↔ Lists (Value.field payload "feature_flags") name
  approval : ∀ state ∈ restrictedStates,
    Value.FirstText [Value.field (asDict (Value.field payload "approval")) "approval_state",
      Value.field payload "approval_state"] state →
    Value.FirstText [Value.field (asDict (Value.field payload "policy")) "permission_mode",
      Value.field payload "permission_mode", .str resolver.defaultPermissionMode] "readonly"

/-! ### What survives -/

theorem mem_asStrList {v : Value} {name : String} : name ∈ asStrList v ↔ Lists v name := by
  cases v with
  | list items =>
    simp only [asStrList, List.mem_filterMap, Value.nonEmpty?_eq_some, Lists, Value.list.injEq]
    constructor
    · intro h
      obtain ⟨_, hmem, rfl, hne⟩ := h
      exact ⟨hne, items, rfl, hmem⟩
    · intro h
      obtain ⟨hne, _, rfl, hmem⟩ := h
      exact ⟨_, hmem, rfl, hne⟩
  | none | bool | int | float | str | dict | object => simp [asStrList, Lists]

theorem normalizeStringList_sorted (values : List String) : Text.Sorted (normalizeStringList values) :=
  Text.sortedSet_sorted _

theorem mem_normalizeStringList {v : Value} {name : String} :
    name ∈ normalizeStringList (asStrList v) ↔ Lists v name := by
  rw [normalizeStringList, Text.mem_sortedSet, List.mem_filter, mem_asStrList]
  exact ⟨fun h => h.1, fun h => ⟨h, by simpa using h.1⟩⟩

/-- A missing entry lists as little as `None` does. -/
theorem lists_default (payload : Payload) (key name : String) :
    Lists ((payload.lookup key).getD (.list [])) name ↔ Lists (Value.field payload key) name := by
  unfold Value.field
  cases payload.lookup key with
  | some v => rfl
  | none => simp [Lists]

/-- **A list read with its nested entry survives.** -/
theorem boundNames_boundBy (payload : Payload) (key : String) :
    BoundBy payload key (normalizeStringList (boundNames payload key)) := by
  refine ⟨normalizeStringList_sorted _, fun name => ?_⟩
  rw [boundNames, mem_normalizeStringList, Binds, nestedEntry]
  cases (asDict (Value.field payload "capability_bindings")).lookup key with
  | some entry => rfl
  | none => exact lists_default payload key name

/-- The flags survive when the nested entry, if there is one, says what the flat one says. -/
theorem flags_boundBy_iff (payload : Payload) :
    BoundBy payload "feature_flags"
        (normalizeStringList (asStrList ((payload.lookup "feature_flags").getD (.list [])))) ↔
      ∀ entry, nestedEntry payload "feature_flags" = some entry →
        ∀ name, Lists entry name ↔ Lists (Value.field payload "feature_flags") name := by
  have hmem : ∀ name, name ∈ normalizeStringList
      (asStrList ((payload.lookup "feature_flags").getD (.list []))) ↔
        Lists (Value.field payload "feature_flags") name :=
    fun name => mem_normalizeStringList.trans (lists_default payload "feature_flags" name)
  simp only [BoundBy, normalizeStringList_sorted, hmem, true_and, Binds]
  cases nestedEntry payload "feature_flags" with
  | none => simp
  | some entry =>
    simp only [Option.getD_some, Option.some.injEq, forall_eq']
    exact ⟨fun h name => (h name).symm, fun h name => (h name).symm⟩

/-- No peer run survives. -/
theorem no_peers_boundBy_iff (payload : Payload) :
    BoundBy payload "peer_run_bindings" (normalizeStringList []) ↔
      ∀ name, ¬ Binds payload "peer_run_bindings" name := by
  have hnil : normalizeStringList [] = [] := rfl
  simp [BoundBy, hnil, Text.Sorted]

/-- What a build gives is the input with its lists normalised. -/
theorem build_ok {H : Digest} {now : String} {i : CapabilitySnapshotInput} {snapshot : CapabilitySnapshot}
    (h : build H now i = .ok snapshot) :
    snapshot.toolBindings = normalizeStringList i.toolBindings ∧
    snapshot.mcpBindings = normalizeStringList i.mcpBindings ∧
    snapshot.skillBindings = normalizeStringList i.skillBindings ∧
    snapshot.featureFlags = normalizeStringList i.featureFlags ∧
    snapshot.peerRunBindings = normalizeStringList i.peerRunBindings ∧
    snapshot.approvalState = i.approvalState ∧ snapshot.permissionMode = i.permissionMode := by
  unfold build at h
  generalize validateInput i = valid at h
  cases valid with
  | error e => cases h
  | ok u =>
    cases h
    exact ⟨rfl, rfl, rfl, rfl, rfl, rfl, rfl⟩

/-- What a resolution gives is the declared input with some digest. -/
theorem Resolver.resolve_ok {resolver : Resolver} {input : TurnInput} {action : Action}
    {i : CapabilitySnapshotInput} (h : resolver.resolve input action = .ok i) :
    ∃ digest, i = resolver.declaredInput input
      (asDict (Value.field (action.inputJson.getD []) "capability_snapshot_input")) digest := by
  simp only [Resolver.resolve] at h
  split at h
  · cases h
  · split at h
    · cases h
    · rename_i digest _
      split at h
      · cases h
      · cases h
        exact ⟨digest, rfl⟩

/-- **What survives of declared governance.** The snapshot says what the payload
declares exactly when the payload asks for nothing the resolver drops: no peer runs, no
nested feature flags of their own, no approval state that would restrict a mode which
is not restricted already. -/
theorem governance_survives_iff (H : Digest) (now : String) (resolver : Resolver) (input : TurnInput)
    (action : Action) (payload : Payload)
    (hpayload : Value.field (action.inputJson.getD []) "capability_snapshot_input" = .dict payload)
    (i : CapabilitySnapshotInput) (hresolve : resolver.resolve input action = .ok i)
    (snapshot : CapabilitySnapshot) (hbuild : build H now i = .ok snapshot) :
    GovernanceSurvives payload snapshot ↔ AsksNothingDropped resolver payload := by
  obtain ⟨digest, rfl⟩ := Resolver.resolve_ok hresolve
  have hdict : asDict (.dict payload) = payload := rfl
  rw [hpayload, hdict] at hbuild
  obtain ⟨htools, hmcp, hskills, hflags, hpeers, happroval, hmode⟩ := build_ok hbuild
  have hstate : ∀ state, snapshot.approvalState = some state ↔
      Value.FirstText [Value.field (asDict (Value.field payload "approval")) "approval_state",
        Value.field payload "approval_state"] state := by
    intro state
    rw [happroval]
    exact Value.findSome?_nonEmpty
  have hreadonly : snapshot.permissionMode = "readonly" ↔
      Value.FirstText [Value.field (asDict (Value.field payload "policy")) "permission_mode",
        Value.field payload "permission_mode", .str resolver.defaultPermissionMode] "readonly" := by
    rw [hmode, ← Value.findSome?_nonEmpty]
    exact Option.getD_eq_iff.trans (by simp [firstNonEmptyOptionalString])
  constructor
  · intro h
    refine ⟨(no_peers_boundBy_iff payload).mp (hpeers ▸ h.peers),
      (flags_boundBy_iff payload).mp (hflags ▸ h.flags), ?_⟩
    intro state hrestricted hfirst
    exact hreadonly.mp (h.approval state hrestricted ((hstate state).mpr hfirst))
  · intro h
    refine ⟨?_, ?_, ?_, ?_, ?_, ?_⟩
    · rw [htools]
      exact boundNames_boundBy payload "tool_bindings"
    · rw [hmcp]
      exact boundNames_boundBy payload "mcp_bindings"
    · rw [hskills]
      exact boundNames_boundBy payload "skill_bindings"
    · rw [hflags]
      exact (flags_boundBy_iff payload).mpr h.flags
    · rw [hpeers]
      exact (no_peers_boundBy_iff payload).mpr h.peers
    · intro state hrestricted hsnapshot
      exact hreadonly.mpr (h.approval state hrestricted ((hstate state).mp hsnapshot))

namespace Sample

/-- A hash that says nothing. -/
def digest : Digest :=
  { hexdigest := fun _ => "0"
    hex := by
      intro s c hc
      obtain rfl : c = '0' := by simpa using hc
      decide }

def turnInput : TurnInput :=
  { runId := "run"
    throughOffset := 1
    basedOnOffset := 1
    triggerType := .start }

def action (payload : Payload) : Action :=
  { actionId := "act"
    runId := "run"
    actionType := "tool_call"
    effectClass := .readOnly
    inputJson := some [("capability_snapshot_input", .dict payload)] }

/-- Two tools bound twice over, nested and flat, and an approval that is given. -/
def tools : Payload :=
  [("capability_bindings", .dict [("tool_bindings", .list [.str "write", .str "read", .str "read"])]),
   ("tool_bindings", .list [.str "shell"]),
   ("approval_state", .str "approved")]

/-- A peer run and an approval that is denied. -/
def peerDenied : Payload :=
  [("peer_run_bindings", .list [.str "peer"]), ("approval", .dict [("approval_state", .str "denied")])]

/-- The snapshot of a payload, by a resolver with its defaults. -/
def snapshot? (payload : Payload) : Except PyError CapabilitySnapshot :=
  match ({} : Resolver).resolve turnInput (action payload) with
  | .error e => .error e
  | .ok i => build digest "" i

end Sample

/-- The nested tools survive, sorted. -/
theorem tools_survive : ∃ snapshot, Sample.snapshot? Sample.tools = .ok snapshot ∧
    GovernanceSurvives Sample.tools snapshot ∧ snapshot.toolBindings = ["read", "write"] := by
  refine ⟨_, rfl, (governance_survives_iff Sample.digest "" {} Sample.turnInput
    (Sample.action Sample.tools) Sample.tools rfl _ rfl _ rfl).mpr ⟨?_, ?_, ?_⟩, rfl⟩
  · intro name hbinds
    obtain ⟨_, items, hitems, _⟩ := hbinds
    cases hitems
  · intro entry hentry
    cases hentry
  · intro state hrestricted hfirst
    obtain rfl : "approved" = state := Option.some.inj (Value.findSome?_nonEmpty.mpr hfirst)
    exact absurd hrestricted (by decide)

/-- A peer run that is bound, and a denial, are lost on the way. -/
theorem peers_and_denial_lost : ∃ snapshot, Sample.snapshot? Sample.peerDenied = .ok snapshot ∧
    Binds Sample.peerDenied "peer_run_bindings" "peer" ∧ snapshot.peerRunBindings = [] ∧
    snapshot.approvalState = some "denied" ∧ snapshot.permissionMode = "strict" ∧
    ¬ GovernanceSurvives Sample.peerDenied snapshot := by
  refine ⟨_, rfl, ⟨by decide, _, rfl, List.mem_singleton.mpr rfl⟩, rfl, rfl, rfl, ?_⟩
  intro h
  have hmode : ("strict" : String) = "readonly" := h.approval "denied" (by decide) rfl
  exact absurd hmode (by decide)

end AgentKernel.Capabilities
