import AgentKernel.Lib.JsonText
import AgentKernel.Facade.Notifications
import AgentKernel.Workflow.Freshness

/-! The policy versions a run is started with, and what a query shows of them.

A start request names its versions field by field; neither gateway passes them on, the
fold of the run's events does not keep them, and a child is handed its parent's under a
key nobody reads. So a query shows no versions, whatever happened to the run
(`queryProjection_bare`), which is what was given only if nothing was
(`policy_versions_carried_iff`). -/
namespace AgentKernel.Facade
open Lib Workflow Projection Events Dedupe

/-! ### Requests -/

/-- The fields that are passed on or name a version. -/
structure StartRunRequest where
  runKind : String
  /-- A text or nothing; for a child, whatever its spawner put there. -/
  sessionId : Value := .none
  inputJson : Option Payload := none
  parentRunId : Option String := none
  initialStageId : Option String := none
  routePolicyVersion : Option String := none
  skillPolicyVersion : Option String := none
  evaluationPolicyVersion : Option String := none
  taskViewPolicyVersion : Option String := none

structure SpawnChildRunRequest where
  parentRunId : String
  childKind : String
  inputJson : Option Payload := none
  inheritPolicyVersions : Bool := true
  policyVersionOverrides : Option (List (String × String)) := none

/-! ### The gateways -/

/-- `_build_run_id` of the one gateway, `_resolve_run_id` of the other. -/
def resolveRunId (request : StartRunRequest) : String :=
  match (Value.field (request.inputJson.getD []) "run_id").str? with
  | some runId => runId
  | none =>
    match Text.orElse request.parentRunId none with
    | some parentRunId => parentRunId ++ ":" ++ request.runKind
    | none =>
      if request.sessionId.truthy then request.sessionId.text ++ ":" ++ request.runKind
      else request.runKind

inductive Gateway where
  | localFsm
  | temporalSdk
  deriving DecidableEq, Repr

/-- The input `start_workflow` runs the workflow with. The Temporal gateway asks the
request for an attribute `policy_versions`, which it does not have. -/
def Gateway.runInput (gateway : Gateway) (request : StartRunRequest) : RunInput :=
  match gateway with
  | .localFsm =>
    { runId := resolveRunId request
      sessionId := request.sessionId
      parentRunId := request.parentRunId }
  | .temporalSdk =>
    { runId := resolveRunId request
      sessionId := request.sessionId
      parentRunId := request.parentRunId
      policyVersions := none
      initialStageId := request.initialStageId }

/-- The id both gateways name the child by. -/
def childRunIdOf (request : SpawnChildRunRequest) : String :=
  match Text.orElse (Value.field (request.inputJson.getD []) "child_run_id").str? none with
  | some childRunId => childRunId
  | none => request.parentRunId ++ ":" ++ request.childKind

/-- `input_json.get("_session_id") or None`. -/
def childSession (request : SpawnChildRunRequest) : Value :=
  let sessionId := Value.field (request.inputJson.getD []) "_session_id"
  if sessionId.truthy then sessionId else .none

/-- The request the local gateway makes of a spawn. -/
def childStart (request : SpawnChildRunRequest) : StartRunRequest :=
  { runKind := request.childKind
    sessionId := childSession request
    inputJson := some (setEntry "child_run_id" (.str (childRunIdOf request)) (request.inputJson.getD []))
    parentRunId := some request.parentRunId }

/-- The run id is made of the session id, which has to have a text for it. -/
def StartRunRequest.namedBySession (request : StartRunRequest) : Bool :=
  (Value.field (request.inputJson.getD []) "run_id").str?.isNone &&
    (Text.orElse request.parentRunId none).isNone && request.sessionId.truthy

def temporalChildInput (request : SpawnChildRunRequest) : RunInput :=
  { runId := childRunIdOf request
    sessionId := childSession request
    parentRunId := some request.parentRunId }

/-- The input `start_child_workflow` runs the child with. -/
def Gateway.childInput (gateway : Gateway) (request : SpawnChildRunRequest) : Except PyError RunInput :=
  match gateway with
  | .localFsm =>
    let start := childStart request
    if start.namedBySession && !JsonText.withinDigits start.sessionId then .error tooManyDigits
    else .ok (Gateway.localFsm.runInput start)
  | .temporalSdk => .ok (temporalChildInput request)

/-- The form in which the Temporal client hands over what the workflow's query returned. -/
inductive QueryForm where
  | projection
  | response
  | dict
  deriving DecidableEq, Repr

/-- The projection the Temporal gateway makes of it: only an object comes through whole. -/
def QueryForm.read (form : QueryForm) (p : RunProjection) : RunProjection :=
  match form with
  | .projection => p
  | .response =>
    { p with
      readyForDispatch := false
      policyVersions := none
      taskContractRef := none }
  | .dict =>
    { p with
      policyVersions := none
      taskContractRef := none }

/-- `query_projection`. The local gateway asks the projection service when the workflow
has nothing to show. -/
def Gateway.queryProjection {σ : Type} (gateway : Gateway) (form : QueryForm) (w : World σ)
    (runId : String) : Except PyError RunProjection :=
  match gateway with
  | .localFsm =>
    match w.process.actor.query with
    | .ok p => .ok p
    | .error _ => (w.services.project runId none).map Prod.fst
  | .temporalSdk => (w.process.actor.query).map form.read

/-! ### The facade -/

/-- The versions a run reports, as `query_run` answers them. -/
def reportedVersions (p : RunProjection) : Option RunPolicyVersions := p.policyVersions

/-- The versions as a dictionary. -/
def versionEntries (versions : RunPolicyVersions) : List (String × Option String) :=
  [("route_policy_version", versions.routePolicyVersion),
   ("acceptance_policy_version", versions.acceptancePolicyVersion),
   ("memory_policy_version", versions.memoryPolicyVersion),
   ("skill_policy_version", versions.skillPolicyVersion),
   ("evaluation_policy_version", versions.evaluationPolicyVersion),
   ("task_view_policy_version", versions.taskViewPolicyVersion)]

/-- `RunPolicyVersions(**entries)`: an unknown name is refused. -/
def versionsFrom (entries : List (String × String)) : Option RunPolicyVersions :=
  if entries.all (fun entry => entry.1 ∈ policyVersionKeys) then some
    { routePolicyVersion := entries.lookup "route_policy_version"
      acceptancePolicyVersion := entries.lookup "acceptance_policy_version"
      memoryPolicyVersion := entries.lookup "memory_policy_version"
      skillPolicyVersion := entries.lookup "skill_policy_version"
      evaluationPolicyVersion := entries.lookup "evaluation_policy_version"
      taskViewPolicyVersion := entries.lookup "task_view_policy_version"
      pinnedAt := (entries.lookup "pinned_at").getD "" }
  else none

/-- The parent's versions with the overrides on top. -/
def overriddenVersions (parent : RunPolicyVersions) (overrides : Option (List (String × String))) :
    Option RunPolicyVersions :=
  match overrides.getD [] with
  | [] => some parent
  | entries =>
    let inherited := (versionEntries parent).filterMap (fun entry => entry.2.map (entry.1, ·))
    versionsFrom (entries.foldl (fun d entry => setEntry entry.1 entry.2 d) inherited)

/-- What `spawn_child_run` makes of the request before it starts the child: the versions the
parent reports go into the input of the child. -/
def inheritVersions (parent : Except PyError RunProjection) (request : SpawnChildRunRequest) :
    SpawnChildRunRequest :=
  if request.inheritPolicyVersions then
    match parent.map reportedVersions with
    | .error _ | .ok none => request
    | .ok (some versions) =>
      match overriddenVersions versions request.policyVersionOverrides with
      | none => request
      | some child =>
        { request with
          inputJson := some (setEntry "_inherited_policy_versions"
            (.dict ((versionEntries child).map (fun entry => (entry.1, optionalText entry.2))))
            (request.inputJson.getD [])) }
  else request

/-! ### What a query should show -/

/-- The versions a request gives. -/
def StartRunRequest.given (request : StartRunRequest) : RunPolicyVersions :=
  { routePolicyVersion := request.routePolicyVersion
    skillPolicyVersion := request.skillPolicyVersion
    evaluationPolicyVersion := request.evaluationPolicyVersion
    taskViewPolicyVersion := request.taskViewPolicyVersion }

/-- A parent's versions with the requested overrides. -/
def requested (parent : RunPolicyVersions) (overrides : List (String × String)) : RunPolicyVersions :=
  { routePolicyVersion := (overrides.lookup "route_policy_version").or parent.routePolicyVersion
    acceptancePolicyVersion :=
      (overrides.lookup "acceptance_policy_version").or parent.acceptancePolicyVersion
    memoryPolicyVersion := (overrides.lookup "memory_policy_version").or parent.memoryPolicyVersion
    skillPolicyVersion := (overrides.lookup "skill_policy_version").or parent.skillPolicyVersion
    evaluationPolicyVersion :=
      (overrides.lookup "evaluation_policy_version").or parent.evaluationPolicyVersion
    taskViewPolicyVersion :=
      (overrides.lookup "task_view_policy_version").or parent.taskViewPolicyVersion }

/-- What is reported names the versions, whenever it was pinned. -/
def Carries (versions : RunPolicyVersions) (reported : Option RunPolicyVersions) : Prop :=
  { reported.getD {} with pinnedAt := "" } = versions

/-- No version is named. -/
def noVersions : RunPolicyVersions := {}

/-! ### What a query shows -/

theorem upTo_bare {j : Journal} {runId : String} {bound : Int} {p : RunProjection}
    (h : UpTo j runId bound p) : Bare p := by
  rw [h.replayed]
  exact foldProjection_bare runId _

section
variable {σ : Type} {K : Kernel σ}

/-- What an instance shows comes from the fold. -/
theorem query_bare {w : World σ} (h : Current w) {p : RunProjection}
    (hquery : w.process.actor.query = .ok p) : Bare p := by
  unfold Actor.query at hquery
  split at hquery
  · cases hquery
  · split at hquery
    · cases hquery
    · rename_i projection hshown
      cases hquery
      obtain ⟨runId, bound, hupto⟩ := h.shown _ hshown
      exact upTo_bare hupto

/-- **A query shows no policy versions**, whatever was done since the run was started. -/
theorem queryProjection_bare {gateway : Gateway} {form : QueryForm} {w : World σ} {runId : String}
    (h : Current w) {p : RunProjection} (hquery : gateway.queryProjection form w runId = .ok p) :
    reportedVersions p = none := by
  cases gateway with
  | localFsm =>
    unfold Gateway.queryProjection at hquery
    cases hown : w.process.actor.query with
    | ok q =>
      rw [hown] at hquery
      cases hquery
      exact (query_bare h hown).policy
    | error e =>
      rw [hown] at hquery
      simp only at hquery
      cases hproject : w.services.project runId none with
      | error e =>
        rw [hproject] at hquery
        cases hquery
      | ok answer =>
        rw [hproject] at hquery
        cases hquery
        have hanswer : w.services.project runId none = .ok (answer.1, answer.2) := hproject
        obtain ⟨_, bound, hupto⟩ := h.services.project hanswer
        exact (upTo_bare hupto).policy
  | temporalSdk =>
    unfold Gateway.queryProjection at hquery
    cases hown : w.process.actor.query with
    | ok q =>
      rw [hown] at hquery
      cases hquery
      cases form with
      | projection => exact (query_bare h hown).policy
      | response | dict => rfl
    | error e =>
      rw [hown] at hquery
      cases hquery

theorem carries_none_iff (versions : RunPolicyVersions) : Carries versions none ↔ versions = noVersions :=
  eq_comm

/-- **When versions are pinned.** Whatever happens to a run and its child after they were
started, a query of the run shows the versions it was given, and a query of the child
the parent's with the overrides, exactly when there are none. -/
theorem policy_versions_carried_iff (K : Kernel σ) (gateway : Gateway) (request : StartRunRequest)
    (journal : Journal) (store : σ) (labels : List Label) (form : QueryForm) :
    let w := run (World.step K) (World.fresh journal store)
      (.call (.run (gateway.runInput request)) :: labels)
    let answer := gateway.queryProjection form w (resolveRunId request)
    (∀ p, answer = .ok p →
      (Carries request.given (reportedVersions p) ↔ request.given = noVersions)) ∧
    ∀ (child : SpawnChildRunRequest) (input : RunInput) (journal' : Journal) (store' : σ)
      (labels' : List Label) (form' : QueryForm),
      child.parentRunId = resolveRunId request → child.inheritPolicyVersions = true →
      gateway.childInput (inheritVersions answer child) = .ok input →
      let w' := run (World.step K) (World.fresh journal' store') (.call (.run input) :: labels')
      ∀ p, gateway.queryProjection form' w' input.runId = .ok p →
        (Carries (requested request.given (child.policyVersionOverrides.getD []))
            (reportedVersions p) ↔
          requested request.given (child.policyVersionOverrides.getD []) = noVersions) := by
  constructor
  · intro p hquery
    rw [queryProjection_bare (current_run K journal store _) hquery]
    exact carries_none_iff _
  · intro child input journal' store' labels' form' _ _ _ w' p hquery
    rw [queryProjection_bare (current_run K journal' store' _) hquery]
    exact carries_none_iff _

end

namespace Sample

/-- A run that is started and reads its projection. -/
def startedRun (request : StartRunRequest) : World InMemoryDedupeStore :=
  run (World.step Workflow.Sample.kernel) (World.fresh Journal.empty Dict.empty)
    (.call (.run (Gateway.temporalSdk.runInput request)) :: Workflow.Sample.awaits 0 1)

def unversioned : StartRunRequest := { runKind := "run" }

def versioned : StartRunRequest :=
  { unversioned with routePolicyVersion := some "v1" }

end Sample

/-- A run without versions, and a child that asks for none. -/
theorem unversioned_run_carries : ∃ p q,
    Gateway.temporalSdk.queryProjection .projection (Sample.startedRun Sample.unversioned) "run" = .ok p ∧
      Carries noVersions (reportedVersions p) ∧
      Gateway.temporalSdk.queryProjection .dict
        (run (World.step Workflow.Sample.kernel) (World.fresh Journal.empty Dict.empty)
          (.call (.run (temporalChildInput
            (inheritVersions (.ok p)
              { parentRunId := "run"
                childKind := "child" }))) :: Workflow.Sample.awaits 0 1)) "run:child" = .ok q ∧
      Carries noVersions (reportedVersions q) := by
  obtain ⟨hrun, hchild⟩ := policy_versions_carried_iff Workflow.Sample.kernel .temporalSdk
    Sample.unversioned Journal.empty Dict.empty (Workflow.Sample.awaits 0 1) .projection
  refine ⟨_, _, rfl, (hrun _ rfl).mpr rfl, rfl, ?_⟩
  exact (hchild
    { parentRunId := "run"
      childKind := "child" } _ Journal.empty Dict.empty (Workflow.Sample.awaits 0 1) .dict rfl rfl rfl _
    rfl).mpr rfl

/-- A run started with a version reports none. -/
theorem versioned_run_reports_none : ∃ p,
    Gateway.temporalSdk.queryProjection .projection (Sample.startedRun Sample.versioned) "run" = .ok p ∧
      Sample.versioned.given.routePolicyVersion = some "v1" ∧ reportedVersions p = none ∧
      ¬ Carries Sample.versioned.given (reportedVersions p) := by
  refine ⟨_, rfl, rfl, rfl, ?_⟩
  intro h
  exact absurd (congrArg RunPolicyVersions.routePolicyVersion h) (Option.some_ne_none "v1").symm

end AgentKernel.Facade
