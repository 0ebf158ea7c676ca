import AgentKernel.Turns.Policy

/-! The host of an action, three times.

The turn engine dispatches an action to the host its tags, its payload or its effect name. The
static admission service checks remote contracts against a host it reads in the same places but
knows three kinds of, and grants a sandbox by six tags it looks for in an order of its own.
`HostHintsAgree` and `ContractChecksAgree` say for which actions the answers are the same
(`hosts_agree_iff`). -/
namespace AgentKernel.Turns.StaticAdmission
open Lib

/-! ### The contract check -/

/-- `DispatchHostKind`: the kinds admission knows. -/
def hostKindOf : String → Option HostKind
  | "local_cli" => some .localCli
  | "local_process" => some .localProcess
  | "remote_service" => some .remoteService
  | _ => none

def normalizeHostKind (value : Value) : Option HostKind :=
  value.str?.bind (fun s => hostKindOf (Text.lower (Text.strip s)))

/-- The first host in the tags, for a reading of host texts. -/
def hostInTags (normalize : Value → Option HostKind) (policyTags : List String) : Option HostKind :=
  policyTags.findSome? (fun tag =>
    let normalized := Text.lower (Text.strip tag)
    hostTags.findSome? (fun front =>
      if Text.startsWith normalized front then normalize (.str (Text.dropFront normalized front))
      else none))

/-- The first host in the payload, under any of the keys, then in what is under `dispatch`. -/
def hostInPayload (normalize : Value → Option HostKind) (payload : Payload) : Option HostKind :=
  (hostKeys.findSome? (fun key => normalize (Value.field payload key))).or
    ((Value.field payload "dispatch").dict?.bind (fun dispatch =>
      hostKeys.findSome? (fun key => normalize (Value.field dispatch key))))

def extractHostKindFromPolicyTags (policyTags : List String) : Option HostKind :=
  hostInTags normalizeHostKind policyTags

def extractHostKindFromPayload (payload : Payload) : Option HostKind :=
  hostInPayload normalizeHostKind payload

def resolveExplicitHostKind (action : Action) : Option HostKind :=
  (extractHostKindFromPolicyTags action.policyTags).or
    (extractHostKindFromPayload (action.inputJson.getD []))

def resolveDispatchHostKind (action : Action) : HostKind :=
  match resolveExplicitHostKind action with
  | some host => host
  | none =>
    if action.effectClass ≠ .readOnly ∧ action.externalIdempotencyLevel ≠ none then .remoteService
    else .localCli

def requiresRemoteIdempotencyContractBlock (action : Action) : Bool :=
  if action.effectClass = .readOnly then false
  else if action.externalIdempotencyLevel ≠ some .guaranteed then false
  else if resolveDispatchHostKind action ≠ .remoteService then false
  else
    !(evaluateRemoteServicePolicy action.externalIdempotencyLevel
      (extractRemoteServiceContract action.inputJson)).canClaimGuaranteed

/-! ### The grant -/

/-- The tags a sandbox is granted by, in the order they are looked for. -/
def sandboxTags : List (String × HostKind) :=
  [("host:local_process", .localProcess), ("host:local_cli", .localCli),
   ("host:remote_service", .remoteService), ("host_kind:local_process", .localProcess),
   ("host_kind:local_cli", .localCli), ("host_kind:remote_service", .remoteService)]

def sandboxHint (policyTags : List String) : Option HostKind :=
  let normalizedTags := policyTags.map (fun tag => Text.lower (Text.strip tag))
  sandboxTags.findSome? (fun candidate => if candidate.1 ∈ normalizedTags then some candidate.2 else none)

def resolveSandboxHostKind (action : Action) : HostKind :=
  match sandboxHint action.policyTags with
  | some host => host
  | none =>
    if action.externalIdempotencyLevel ≠ none ∧ action.effectClass ≠ .readOnly then .remoteService
    else .localCli

inductive NetworkPolicy where
  | denyAll
  | allowList
  | allowAll
  deriving DecidableEq, Repr

structure SandboxGrant where
  grantRef : String
  hostKind : HostKind
  sandboxProfileRef : Option String := none
  allowedMounts : List String := []
  deniedMounts : List String := []
  networkPolicy : NetworkPolicy := .denyAll
  allowedHosts : List String := []
  deriving DecidableEq, Repr

inductive AdmissionReason where
  | ok
  | quotaExceeded
  | policyDenied
  | idempotencyContractInsufficient
  deriving DecidableEq, Repr

structure AdmissionResult where
  admitted : Bool
  reasonCode : AdmissionReason
  grantRef : Option String := none
  sandboxGrant : Option SandboxGrant := none
  idempotencyEnvelope : Option Payload := none

def hostText : HostKind → String
  | .localProcess => "local_process"
  | .localCli => "local_cli"
  | .cliProcess => "cli_process"
  | .inProcessPython => "in_process_python"
  | .remoteService => "remote_service"

def buildAdmittedResult (action : Action) : AdmissionResult :=
  let hostKind := resolveSandboxHostKind action
  let grantRef := "grant:" ++ action.actionId
  { admitted := true
    reasonCode := .ok
    grantRef := some grantRef
    sandboxGrant := some
      { grantRef := grantRef
        hostKind := hostKind
        sandboxProfileRef := some ("sandbox:" ++ hostText hostKind ++ ":default")
        allowedMounts := ["workspace:/"]
        networkPolicy := if hostKind ≠ .remoteService then .denyAll else .allowList }
    idempotencyEnvelope := some
      [("dispatch_idempotency_key", .str ("dispatch:" ++ action.runId ++ ":" ++ action.actionId)),
       ("operation_fingerprint", .str (action.runId ++ ":" ++ action.actionId)),
       ("attempt_seq", .int 1),
       ("effect_scope", .str action.effectClass.text),
       ("host_kind", .str (hostText hostKind))] }

/-! ### Admission -/

/-- What finite floats do here: reading a text, converting an `int`, which may overflow, and the
texts of floats, and comparing. -/
structure Costs (F : Type) where
  parseFiniteFloat : String → Option F
  ofInt : Int → Except PyError F
  ofFloat : String → Option F
  exceeds : F → F → Bool

section
variable {F : Type} (costs : Costs F)

def extractMaxCostFromPolicyTags (policyTags : List String) : Option F :=
  policyTags.findSome? (fun tag =>
    if Text.startsWith tag "max_cost:" then
      costs.parseFiniteFloat (Text.strip (Text.dropFront tag "max_cost:"))
    else none)

def coerceFiniteNumber : Value → Except PyError (Option F)
  | .int i => some <$> costs.ofInt i
  | .float repr => .ok (costs.ofFloat repr)
  | _ => .ok none

def extractEstimatedCost (inputJson : Option Payload) : Except PyError (Option F) :=
  match inputJson with
  | none => .ok none
  | some input => coerceFiniteNumber costs (Value.field input "estimated_cost")

def denied (reason : AdmissionReason) : Option AdmissionResult :=
  some { admitted := false, reasonCode := reason }

/-- `estimated_cost > max_cost`, where both are given. -/
def quotaExceeded (action : Action) (estimatedCost : Option F) : Bool :=
  match extractMaxCostFromPolicyTags costs action.policyTags, estimatedCost with
  | some maxCost, some estimated => costs.exceeds estimated maxCost
  | _, _ => false

def evaluateActionPolicyDenies (action : Action) : Except PyError (Option AdmissionResult) :=
  if "requires_human_review" ∈ action.policyTags then .ok (denied .policyDenied)
  else if action.timeoutMs.any (fun ms => ms > 0 && ms > 300000) then .ok (denied .policyDenied)
  else
    match extractEstimatedCost costs action.inputJson with
    | .error e => .error e
    | .ok estimatedCost =>
      if quotaExceeded costs action estimatedCost then .ok (denied .quotaExceeded)
      else if requiresRemoteIdempotencyContractBlock action then
        .ok (denied .idempotencyContractInsufficient)
      else .ok none

/-- `StaticDispatchAdmissionService.admit`; the snapshot is not looked at. -/
def admitAction (action : Action) : Except PyError AdmissionResult :=
  match evaluateActionPolicyDenies costs action with
  | .error e => .error e
  | .ok (some result) => .ok result
  | .ok none => .ok (buildAdmittedResult action)

end

/-- The result as the turn engine gets it. -/
def AdmissionResult.value (result : AdmissionResult) : AdmissionValue :=
  .object
    { admitted := .bool result.admitted
      grantRef := (result.grantRef.map Value.str).getD .none
      idempotencyEnvelope := .value ((result.idempotencyEnvelope.map Value.dict).getD .none) }

/-! ### What the readings share -/

/-- The first reading says the same as the second wherever it knows the kind. -/
def Narrows (known : HostKind → Prop) (wide narrow : Option HostKind) : Prop :=
  (wide = none → narrow = none) ∧ ∀ host, wide = some host → known host → narrow = some host

variable {known : HostKind → Prop}

theorem Narrows.findSome {α : Type} {wide narrow : α → Option HostKind}
    (h : ∀ a, Narrows known (wide a) (narrow a)) (l : List α) :
    Narrows known (l.findSome? wide) (l.findSome? narrow) := by
  induction l with
  | nil => exact ⟨fun _ => rfl, fun _ h => nomatch h⟩
  | cons a rest ih =>
    rw [List.findSome?_cons, List.findSome?_cons]
    obtain ⟨hnone, hsome⟩ := h a
    cases hwide : wide a with
    | none =>
      rw [hnone hwide]
      exact ih
    | some host =>
      refine ⟨(fun h => nomatch h), fun host' heq hknown => ?_⟩
      cases heq
      rw [hsome host hwide hknown]

theorem Narrows.or {wide narrow wide' narrow' : Option HostKind} (h : Narrows known wide narrow)
    (h' : Narrows known wide' narrow') : Narrows known (wide.or wide') (narrow.or narrow') := by
  cases hwide : wide with
  | none =>
    rw [h.1 hwide]
    exact h'
  | some host =>
    refine ⟨(fun h => nomatch h), fun host' heq hknown => ?_⟩
    cases heq
    rw [h.2 host hwide hknown]
    rfl

/-- The kinds both know. -/
def Shared (host : HostKind) : Prop := host ≠ .cliProcess ∧ host ≠ .inProcessPython

theorem hostKindOf_narrows (text : String) :
    Narrows Shared (Turns.hostKindOf text) (hostKindOf text) := by
  unfold Turns.hostKindOf
  split
  · exact ⟨(fun h => nomatch h), fun host h _ => h⟩
  · exact ⟨(fun h => nomatch h), fun host h _ => h⟩
  · exact ⟨(fun h => nomatch h), fun host h _ => h⟩
  · exact ⟨(fun h => nomatch h), fun host h hshared => absurd (Option.some.inj h).symm hshared.1⟩
  · exact ⟨(fun h => nomatch h), fun host h hshared => absurd (Option.some.inj h).symm hshared.2⟩
  next hcli hprocess hremote _ _ =>
    refine ⟨fun _ => ?_, (fun _ h => nomatch h)⟩
    unfold hostKindOf
    split
    · exact (hcli rfl).elim
    · exact (hprocess rfl).elim
    · exact (hremote rfl).elim
    · rfl

theorem normalizeHostKind_narrows (v : Value) :
    Narrows Shared (Turns.normalizeHostKind v) (normalizeHostKind v) := by
  unfold Turns.normalizeHostKind normalizeHostKind
  cases v.str? with
  | none => exact ⟨fun _ => rfl, (fun _ h => nomatch h)⟩
  | some s =>
    rw [Option.bind_some, Option.bind_some]
    exact hostKindOf_narrows (Text.lower (Text.strip s))

theorem hostInTags_narrows (policyTags : List String) :
    Narrows Shared (Turns.extractHostKindFromPolicyTags policyTags)
      (extractHostKindFromPolicyTags policyTags) := by
  refine Narrows.findSome (fun tag => Narrows.findSome (fun front => ?_) hostTags) policyTags
  split
  · exact normalizeHostKind_narrows _
  · exact ⟨fun _ => rfl, (fun _ h => nomatch h)⟩

theorem hostInPayload_narrows (payload : Payload) :
    Narrows Shared (Turns.extractHostKindFromPayload payload) (extractHostKindFromPayload payload) := by
  refine Narrows.or (Narrows.findSome (fun key => normalizeHostKind_narrows _) hostKeys) ?_
  cases (Value.field payload "dispatch").dict? with
  | none => exact ⟨fun _ => rfl, (fun _ h => nomatch h)⟩
  | some dispatch =>
    rw [Option.bind_some, Option.bind_some]
    exact Narrows.findSome (fun key => normalizeHostKind_narrows _) hostKeys

theorem hostKindOf_shared {text : String} {host : HostKind} (h : hostKindOf text = some host) :
    Shared host := by
  unfold hostKindOf at h
  split at h
  · cases h
    exact ⟨by decide, by decide⟩
  · cases h
    exact ⟨by decide, by decide⟩
  · cases h
    exact ⟨by decide, by decide⟩
  · cases h

theorem normalizeHostKind_shared {v : Value} {host : HostKind} (h : normalizeHostKind v = some host) :
    Shared host := by
  obtain ⟨text, _, htext⟩ := Option.bind_eq_some_iff.mp h
  exact hostKindOf_shared htext

/-- What admission reads it knows. -/
theorem resolveExplicitHostKind_shared {action : Action} {host : HostKind}
    (h : resolveExplicitHostKind action = some host) : Shared host := by
  rcases Option.or_eq_some_iff.mp h with htags | ⟨_, hpayload⟩
  · obtain ⟨tag, _, htag⟩ := List.exists_of_findSome?_eq_some htags
    obtain ⟨front, _, hfront⟩ := List.exists_of_findSome?_eq_some htag
    split at hfront
    · exact normalizeHostKind_shared hfront
    · cases hfront
  · rcases Option.or_eq_some_iff.mp hpayload with hdirect | ⟨_, hnested⟩
    · obtain ⟨key, _, hkey⟩ := List.exists_of_findSome?_eq_some hdirect
      exact normalizeHostKind_shared hkey
    · obtain ⟨dispatch, _, hdispatch⟩ := Option.bind_eq_some_iff.mp hnested
      obtain ⟨key, _, hkey⟩ := List.exists_of_findSome?_eq_some hdispatch
      exact normalizeHostKind_shared hkey

/-- **Admission reads the same host as the engine, unless the engine's is one it does not know.** -/
theorem resolveExplicitHostKind_narrows (action : Action) :
    Narrows Shared (Turns.resolveExplicitHostKind action) (resolveExplicitHostKind action) :=
  (hostInTags_narrows _).or (hostInPayload_narrows _)

/-! ### The hosts -/

/-- Where an action without a host of its own goes. -/
def defaultHostKind (action : Action) : HostKind :=
  if action.effectClass ≠ .readOnly ∧ action.externalIdempotencyLevel ≠ none then .remoteService
  else .localCli

/-- When a sandbox tag is there, the first tag that names a host names the sandbox's; otherwise a host
that is named is the default. -/
def HostHintsAgree (action : Action) : Prop :=
  match sandboxHint action.policyTags with
  | some host => Turns.extractHostKindFromPolicyTags action.policyTags = some host
  | none => ∀ host, Turns.resolveExplicitHostKind action = some host → host = defaultHostKind action

theorem dispatchHostKind_eq (action : Action) :
    Turns.resolveDispatchHostKind action =
      (Turns.resolveExplicitHostKind action).getD (defaultHostKind action) := by
  unfold Turns.resolveDispatchHostKind defaultHostKind
  cases Turns.resolveExplicitHostKind action <;> rfl

theorem sandboxHostKind_eq (action : Action) :
    resolveSandboxHostKind action = (sandboxHint action.policyTags).getD (defaultHostKind action) := by
  unfold resolveSandboxHostKind defaultHostKind
  cases sandboxHint action.policyTags with
  | none => simp only [Option.getD_none, and_comm]
  | some host => rfl

/-- A sandbox tag names a host to the engine, too. -/
theorem sandboxTag_names : ∀ candidate ∈ sandboxTags,
    (hostTags.findSome? (fun front =>
      if Text.startsWith candidate.1 front then
        Turns.normalizeHostKind (.str (Text.dropFront candidate.1 front))
      else none)) = some candidate.2 := by
  decide

theorem hostInTags_of_sandboxHint {policyTags : List String} {host : HostKind}
    (h : sandboxHint policyTags = some host) : Turns.extractHostKindFromPolicyTags policyTags ≠ none := by
  obtain ⟨candidate, hcandidate, hmatch⟩ := List.exists_of_findSome?_eq_some h
  split at hmatch
  next hmem =>
    obtain ⟨tag, htag, hnormalized⟩ := List.mem_map.mp hmem
    intro hnone
    have hsilent := List.findSome?_eq_none_iff.mp hnone tag htag
    simp only [hnormalized, sandboxTag_names candidate hcandidate] at hsilent
    cases hsilent
  · cases hmatch

/-- **When the engine's host is the sandbox's.** -/
theorem dispatchHostKind_eq_sandbox_iff (action : Action) :
    Turns.resolveDispatchHostKind action = resolveSandboxHostKind action ↔ HostHintsAgree action := by
  rw [dispatchHostKind_eq, sandboxHostKind_eq]
  unfold HostHintsAgree
  cases hhint : sandboxHint action.policyTags with
  | some host =>
    obtain ⟨named, hnamed⟩ := Option.ne_none_iff_exists'.mp (hostInTags_of_sandboxHint hhint)
    simp [Turns.resolveExplicitHostKind, hnamed]
  | none => cases Turns.resolveExplicitHostKind action <;> simp

/-! ### The contract checks -/

/-- The contract of a guaranteed side effect does not bear the claim out. -/
def ContractInsufficient (action : Action) : Prop :=
  action.effectClass ≠ .readOnly ∧ action.externalIdempotencyLevel = some .guaranteed ∧
    (evaluateRemoteServicePolicy action.externalIdempotencyLevel
      (extractRemoteServiceContract action.inputJson)).canClaimGuaranteed = false

/-- If such an action names a host that admission does not know first, then the first one it knows is
a local one. -/
def ContractChecksAgree (action : Action) : Prop :=
  ContractInsufficient action →
    Turns.resolveExplicitHostKind action ∈ [some .cliProcess, some .inProcessPython] →
    resolveExplicitHostKind action ∈ [some .localCli, some .localProcess]

theorem requiresBlock_iff (action : Action) :
    requiresRemoteIdempotencyContractBlock action = true ↔
      ContractInsufficient action ∧ resolveDispatchHostKind action = .remoteService := by
  unfold requiresRemoteIdempotencyContractBlock ContractInsufficient
  split
  next hread => simp [hread]
  next hread =>
    split
    next hlevel => simp [hlevel]
    next hlevel =>
      split
      next hhost => simp [hhost]
      next hhost => simp [hread, not_not.mp hlevel, not_not.mp hhost]

theorem shouldBlock_iff (action : Action) :
    (resolveDispatchPolicy action).shouldBlock = true ↔
      ContractInsufficient action ∧ Turns.resolveDispatchHostKind action = .remoteService := by
  unfold resolveDispatchPolicy ContractInsufficient
  simp only
  split
  next hfree =>
    rcases hfree with hhost | hread
    · simp [hhost]
    · simp [hread]
  next hchecked =>
    obtain ⟨hhost, hread⟩ := not_or.mp hchecked
    split
    next hblock =>
      exact ⟨fun _ => ⟨⟨hread, hblock.1, by simpa using hblock.2⟩, not_not.mp hhost⟩, fun _ => rfl⟩
    next hpass =>
      have hhost := not_not.mp hhost
      simp only [hhost]
      simp only [not_and, Bool.not_eq_true] at hpass
      simp
      intro _ hlevel
      simpa using hpass hlevel

/-- Of a guaranteed side effect the two readings agree on being remote. -/
theorem remote_iff {action : Action} (h : ContractInsufficient action) :
    (resolveDispatchHostKind action = .remoteService ↔
        Turns.resolveDispatchHostKind action = .remoteService) ↔
      (Turns.resolveExplicitHostKind action ∈ [some .cliProcess, some .inProcessPython] →
        resolveExplicitHostKind action ∈ [some .localCli, some .localProcess]) := by
  have hdefault : defaultHostKind action = .remoteService := by
    unfold defaultHostKind
    rw [if_pos ⟨h.1, by simp [h.2.1]⟩]
  have hnarrow : resolveDispatchHostKind action =
      (resolveExplicitHostKind action).getD (defaultHostKind action) := by
    unfold resolveDispatchHostKind defaultHostKind
    cases resolveExplicitHostKind action <;> rfl
  obtain ⟨hnone, hsome⟩ := resolveExplicitHostKind_narrows action
  rw [hnarrow, dispatchHostKind_eq, hdefault]
  cases hwide : Turns.resolveExplicitHostKind action with
  | none => simp [hnone hwide]
  | some host =>
    by_cases hshared : Shared host
    · simp [hsome host hwide hshared, hshared.1, hshared.2]
    · have hlocal : host = .cliProcess ∨ host = .inProcessPython := by
        simpa [Shared, Classical.or_iff_not_imp_left] using hshared
      have hnot : host ≠ .remoteService := by rcases hlocal with rfl | rfl <;> decide
      have hmem : some host ∈ [some HostKind.cliProcess, some .inProcessPython] := by
        rcases hlocal with rfl | rfl <;> simp
      simp only [Option.getD_some, hnot, iff_false, hmem, true_implies]
      cases hread : resolveExplicitHostKind action with
      | none => simp
      | some read =>
        obtain ⟨hcli, hpython⟩ := resolveExplicitHostKind_shared hread
        cases read <;> simp at hcli hpython ⊢

/-- **When admission's check is the engine's.** -/
theorem contractChecks_iff (action : Action) :
    (requiresRemoteIdempotencyContractBlock action = true ↔
      (resolveDispatchPolicy action).shouldBlock = true) ↔ ContractChecksAgree action := by
  rw [requiresBlock_iff, shouldBlock_iff]
  unfold ContractChecksAgree
  by_cases h : ContractInsufficient action
  · rw [← remote_iff h]
    simp [h]
  · simp [h]

/-! ### The envelope -/

theorem dispatchPolicy_hostKind (action : Action) :
    (resolveDispatchPolicy action).hostKind = Turns.resolveDispatchHostKind action := by
  unfold resolveDispatchPolicy
  simp only
  split
  · rfl
  · split <;> rfl

theorem normalizeHostKind_text (host : HostKind) :
    Turns.normalizeHostKind (.str (hostText host)) = some host := by
  cases host <;> decide

theorem nonemptyString_colon (a b : String) : nonemptyString? (.str (a ++ ":" ++ b)) = some (a ++ ":" ++ b) := by
  have hne : a ++ ":" ++ b ≠ "" := by
    intro h
    have hlist := congrArg String.toList h
    simp at hlist
  simp [nonemptyString?, hne]

/-- A turn reserves under the host of the sandbox. -/
theorem reserved_hostKind (action : Action) (identity : TurnIdentity) (snapshot : CapabilitySnapshot)
    (hostKind : HostKind) :
    (resolveIdempotencyEnvelope (buildAdmittedResult action).value identity action snapshot hostKind).hostKind =
      resolveSandboxHostKind action := by
  have heffect : nonemptyString? (.str action.effectClass.text) = some action.effectClass.text := by
    cases action.effectClass <;> rfl
  have hkey := nonemptyString_colon ("dispatch:" ++ action.runId) action.actionId
  have hfingerprint := nonemptyString_colon action.runId action.actionId
  have hhost := normalizeHostKind_text (resolveSandboxHostKind action)
  have hparsed : (parseIdempotencyEnvelope (buildAdmittedResult action).value.envelopePayload
      snapshot.snapshotHash).map (·.hostKind) = some (resolveSandboxHostKind action) := by
    simp [parseIdempotencyEnvelope, AdmissionValue.envelopePayload, AdmissionResult.value,
      buildAdmittedResult, Value.dict?, Value.field, List.lookup_cons, heffect, hkey, hfingerprint, hhost,
      positiveInt?]
  obtain ⟨parsed, hsome, hkind⟩ := Option.map_eq_some_iff.mp hparsed
  unfold resolveIdempotencyEnvelope
  rw [hsome]
  exact hkind

/-- The grant, the envelope that is proposed and the one that is reserved all name the host the action
is dispatched to. -/
structure HostsAgree (action : Action) (result : AdmissionResult) : Prop where
  granted : ∃ grant, result.sandboxGrant = some grant ∧
    grant.hostKind = (resolveDispatchPolicy action).hostKind
  proposed : ∃ envelope, result.idempotencyEnvelope = some envelope ∧
    Value.field envelope "host_kind" = .str (hostText (resolveDispatchPolicy action).hostKind)
  reserved : ∀ identity snapshot,
    (resolveIdempotencyEnvelope result.value identity action snapshot
      (resolveDispatchPolicy action).hostKind).hostKind = (resolveDispatchPolicy action).hostKind

theorem hostsAgree_admitted_iff (action : Action) :
    HostsAgree action (buildAdmittedResult action) ↔ HostHintsAgree action := by
  rw [← dispatchHostKind_eq_sandbox_iff]
  constructor
  · intro h
    obtain ⟨grant, hgrant, hhost⟩ := h.granted
    cases hgrant
    exact (dispatchPolicy_hostKind action).symm.trans hhost.symm
  · intro h
    have hpolicy := (dispatchPolicy_hostKind action).trans h
    refine ⟨⟨_, rfl, hpolicy.symm⟩, ⟨_, rfl, ?_⟩, fun identity snapshot => ?_⟩
    · rw [hpolicy]
      rfl
    · rw [reserved_hostKind, hpolicy]

theorem denied_not_admitted {F : Type} {costs : Costs F} {action : Action} {result : AdmissionResult}
    (h : evaluateActionPolicyDenies costs action = .ok (some result)) : result.admitted = false := by
  have hdenied : ∀ reason, (.ok (denied reason) : Except PyError (Option AdmissionResult)) =
      .ok (some result) → result.admitted = false := by
    intro reason heq
    cases heq
    rfl
  unfold evaluateActionPolicyDenies at h
  split at h
  · exact hdenied _ h
  · split at h
    · exact hdenied _ h
    · split at h
      · cases h
      · split at h
        · exact hdenied _ h
        · split at h
          · exact hdenied _ h
          · cases h

/-- **When the three readings agree.** Whatever floats do, the hosts of an admitted action agree
exactly when its hints do, and the contract checks exactly when theirs do. -/
theorem hosts_agree_iff {F : Type} (costs : Costs F) (action : Action) :
    ((∀ result, admitAction costs action = .ok result → result.admitted = true → HostsAgree action result) ∧
        (requiresRemoteIdempotencyContractBlock action = true ↔
          (resolveDispatchPolicy action).shouldBlock = true)) ↔
      (evaluateActionPolicyDenies costs action = .ok none → HostHintsAgree action) ∧
        ContractChecksAgree action := by
  refine and_congr ?_ (contractChecks_iff action)
  unfold admitAction
  cases hdenies : evaluateActionPolicyDenies costs action with
  | error e => simp
  | ok denies =>
    cases denies with
    | none =>
      rw [← hostsAgree_admitted_iff]
      simp only [Except.ok.injEq, true_implies]
      constructor
      · exact fun h => h _ rfl rfl
      · rintro h result rfl _
        exact h
    | some denied =>
      refine iff_of_true (fun result hresult hadmitted => ?_) (fun h => by cases h)
      cases hresult
      rw [denied_not_admitted hdenies] at hadmitted
      cases hadmitted

/-- Costs nobody gives. -/
def noCosts : Costs Int := ⟨fun _ => none, .ok, fun _ => none, fun a b => decide (a > b)⟩

/-- A read on the command line, by its tag. -/
def taggedRead : Action :=
  { actionId := "read", runId := "run", actionType := "tool_call", effectClass := .readOnly
    policyTags := ["host:cli_process"] }

/-- A guaranteed write that names a host admission does not know. -/
def guaranteedWrite : Action :=
  { actionId := "write", runId := "run", actionType := "tool_call", effectClass := .irreversibleWrite
    externalIdempotencyLevel := some .guaranteed
    policyTags := ["host:in_process_python"] }

/-- The read is dispatched to one host and granted another; the write is denied by admission for want of
a contract that the engine does not ask for. -/
theorem hosts_disagree :
    (¬ ∀ result, admitAction noCosts taggedRead = .ok result → result.admitted = true →
        HostsAgree taggedRead result) ∧
      ¬ (requiresRemoteIdempotencyContractBlock guaranteedWrite = true ↔
        (resolveDispatchPolicy guaranteedWrite).shouldBlock = true) := by
  constructor
  · intro h
    obtain ⟨grant, hgrant, hhost⟩ := (h (buildAdmittedResult taggedRead) rfl rfl).granted
    cases hgrant
    revert hhost
    decide
  · decide

end AgentKernel.Turns.StaticAdmission
