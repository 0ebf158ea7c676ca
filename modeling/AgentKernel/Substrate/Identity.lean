import AgentKernel.Facade.PolicyVersions

/-! The run ids the two gateways give.

A run that is started directly gets the same id from both. A child does not: the Temporal
gateway names it by the id its spawner asked for, while the local one hands the request on
to `start_workflow`, which looks for another field, so the id asked for is not read again
(`childId_local`). Children with different requested ids are one run there
(`requested_ids_collapse`). The gateways agree on a list of children exactly when every
request of it names its run in a way both understand (`run_identity_iff`). -/
namespace AgentKernel.Substrate
open Lib Facade Workflow

/-! ### What a request names -/

/-- The run id a child is given, if it is given one. -/
def childId (gateway : Gateway) (parentRunId : String) (request : SpawnChildRunRequest) :
    Except PyError String :=
  (gateway.childInput { request with parentRunId := parentRunId }).map RunInput.runId

/-- `input_json.child_run_id`, if it is a text with something in it. -/
def requestedChildId (request : SpawnChildRunRequest) : Option String :=
  Text.orElse (Value.field (request.inputJson.getD []) "child_run_id").str? none

/-- `input_json.run_id`, if it is a text. -/
def requestedRunId (request : SpawnChildRunRequest) : Option String :=
  (Value.field (request.inputJson.getD []) "run_id").str?

/-- The id of a child that no field names. -/
def defaultChildId (parentRunId : String) (request : SpawnChildRunRequest) : String :=
  parentRunId ++ ":" ++ request.childKind

/-- What `start_workflow` falls back to without a parent: the session, whatever it is, in front
of the kind. -/
def orphanId (request : SpawnChildRunRequest) : Except PyError String :=
  let sessionId := Value.field (request.inputJson.getD []) "_session_id"
  if sessionId.truthy then
    if JsonText.withinDigits sessionId then .ok (sessionId.text ++ ":" ++ request.childKind)
    else .error tooManyDigits
  else .ok request.childKind

/-- Both gateways understand the request alike: a run id in it is the child's id; without
one, the id asked for is the one that would be given anyway. -/
def Understood (parentRunId : String) (request : SpawnChildRunRequest) : Prop :=
  match requestedRunId request with
  | some runId => runId = (requestedChildId request).getD (defaultChildId parentRunId request)
  | none =>
    if parentRunId = "" then
      orphanId request = .ok ((requestedChildId request).getD (defaultChildId parentRunId request))
    else requestedChildId request = none ∨
      requestedChildId request = some (defaultChildId parentRunId request)

/-- The ids the children of one parent get. -/
structure Identified (parentRunId : String) (requests : List SpawnChildRunRequest) : Prop where
  same : ∀ request ∈ requests,
    childId .localFsm parentRunId request = childId .temporalSdk parentRunId request
  asked : ∀ request ∈ requests, ∀ c, requestedChildId request = some c →
    ∀ gateway, childId gateway parentRunId request = .ok c
  distinct : (∀ request ∈ requests, requestedChildId request ≠ none) →
    (requests.map requestedChildId).Nodup → ∀ gateway, (requests.map (childId gateway parentRunId)).Nodup

/-! ### The ids that are given -/

theorem runId_start (request : StartRunRequest) :
    (Gateway.localFsm.runInput request).runId = (Gateway.temporalSdk.runInput request).runId := rfl

theorem childId_temporal (parentRunId : String) (request : SpawnChildRunRequest) :
    childId .temporalSdk parentRunId request =
      .ok ((requestedChildId request).getD (defaultChildId parentRunId request)) := by
  refine congrArg Except.ok ?_
  show childRunIdOf { request with parentRunId := parentRunId } = _
  unfold childRunIdOf requestedChildId defaultChildId
  simp only
  cases Text.orElse (Value.field (request.inputJson.getD []) "child_run_id").str? none <;> rfl

theorem childSession_truthy (request : SpawnChildRunRequest) :
    (childSession request).truthy = (Value.field (request.inputJson.getD []) "_session_id").truthy := by
  unfold childSession
  simp only
  split
  · rfl
  · rename_i h
    exact (Bool.not_eq_true _ ▸ h : _ = false).symm

theorem childSession_eq {request : SpawnChildRunRequest}
    (h : (Value.field (request.inputJson.getD []) "_session_id").truthy = true) :
    childSession request = Value.field (request.inputJson.getD []) "_session_id" := if_pos h

/-- **The local gateway does not read the id that was asked for.** -/
theorem childId_local (parentRunId : String) (request : SpawnChildRunRequest) :
    childId .localFsm parentRunId request =
      (requestedRunId request).elim
        (if parentRunId = "" then orphanId request else .ok (defaultChildId parentRunId request)) .ok := by
  have hkeys : "run_id" ≠ "child_run_id" := by decide
  have hrunId : Value.field ((childStart { request with parentRunId := parentRunId }).inputJson.getD [])
      "run_id" = Value.field (request.inputJson.getD []) "run_id" := by
    simp only [childStart, Option.getD_some, Value.field, Dict.lookup_setEntry, if_neg hkeys]
  unfold childId Gateway.childInput StartRunRequest.namedBySession Gateway.runInput resolveRunId requestedRunId
  simp only [hrunId]
  cases (Value.field (request.inputJson.getD []) "run_id").str? with
  | some runId => rfl
  | none =>
    by_cases hparent : parentRunId = ""
    · have hnone : Text.orElse (some parentRunId) none = none := if_pos hparent
      have hsession : (childSession { request with parentRunId := parentRunId }).truthy =
          (Value.field (request.inputJson.getD []) "_session_id").truthy := childSession_truthy request
      simp only [childStart, hnone, Option.isNone_none, Bool.true_and, hsession, Option.elim_none, if_pos hparent,
        orphanId]
      cases htruthy : (Value.field (request.inputJson.getD []) "_session_id").truthy with
      | false => rfl
      | true =>
        have hvalue : childSession { request with parentRunId := parentRunId } =
            Value.field (request.inputJson.getD []) "_session_id" := childSession_eq htruthy
        rw [hvalue]
        cases JsonText.withinDigits (Value.field (request.inputJson.getD []) "_session_id") <;> rfl
    · have hsome : Text.orElse (some parentRunId) none = some parentRunId := if_neg hparent
      simp only [childStart, hsome, Option.isNone_some, Bool.and_false, Bool.false_and, Option.elim_none,
        if_neg hparent]
      rfl

theorem given_default_iff (parentRunId : String) (request : SpawnChildRunRequest) :
    (requestedChildId request).getD (defaultChildId parentRunId request) = defaultChildId parentRunId request ↔
      requestedChildId request = none ∨ requestedChildId request = some (defaultChildId parentRunId request) := by
  cases requestedChildId request <;> simp

/-- **The gateways give a child the same id exactly when they understand the request
alike.** -/
theorem childId_same_iff (parentRunId : String) (request : SpawnChildRunRequest) :
    childId .localFsm parentRunId request = childId .temporalSdk parentRunId request ↔
      Understood parentRunId request := by
  rw [childId_local, childId_temporal, Understood]
  cases requestedRunId request with
  | some runId => exact ⟨Except.ok.inj, congrArg Except.ok⟩
  | none =>
    by_cases hparent : parentRunId = ""
    · simp only [Option.elim_none, if_pos hparent]
    · simp only [Option.elim_none, if_neg hparent]
      rw [Except.ok.injEq, eq_comm]
      exact given_default_iff parentRunId request

theorem childId_asked {parentRunId : String} {request : SpawnChildRunRequest} {c : String}
    (hsame : childId .localFsm parentRunId request = childId .temporalSdk parentRunId request)
    (hasked : requestedChildId request = some c) (gateway : Gateway) :
    childId gateway parentRunId request = .ok c := by
  have htemporal : childId .temporalSdk parentRunId request = .ok c := by
    rw [childId_temporal, hasked, Option.getD_some]
  cases gateway with
  | localFsm => exact hsame.trans htemporal
  | temporalSdk => exact htemporal

theorem identified_iff (parentRunId : String) (requests : List SpawnChildRunRequest) :
    Identified parentRunId requests ↔ ∀ request ∈ requests, Understood parentRunId request := by
  constructor
  · intro h request hmem
    exact (childId_same_iff parentRunId request).mp (h.same request hmem)
  · intro h
    have hsame : ∀ request ∈ requests,
        childId .localFsm parentRunId request = childId .temporalSdk parentRunId request :=
      fun request hmem => (childId_same_iff parentRunId request).mpr (h request hmem)
    refine ⟨hsame, fun request hmem c hasked gateway => childId_asked (hsame request hmem) hasked gateway,
      fun hnamed hnodup gateway => ?_⟩
    have hids : requests.map requestedChildId =
        (requests.map (childId gateway parentRunId)).map Except.toOption := by
      rw [List.map_map]
      refine List.map_congr_left (fun request hmem => ?_)
      obtain ⟨c, hc⟩ := Option.ne_none_iff_exists'.mp (hnamed request hmem)
      rw [Function.comp_apply, childId_asked (hsame request hmem) hc gateway, hc]
      rfl
    rw [hids] at hnodup
    exact List.Nodup.of_map Except.toOption hnodup

/-- **When a run has one identity on both substrates.** Runs that are started directly do;
the children of a parent do, and get the ids they were asked for, exactly when every
request is understood alike. -/
theorem run_identity_iff (parentRunId : String) (requests : List SpawnChildRunRequest) :
    (∀ request : StartRunRequest,
      (Gateway.localFsm.runInput request).runId = (Gateway.temporalSdk.runInput request).runId) ∧
    (Identified parentRunId requests ↔ ∀ request ∈ requests, Understood parentRunId request) :=
  ⟨runId_start, identified_iff parentRunId requests⟩

namespace Sample

def worker (childRunId : String) : SpawnChildRunRequest :=
  { parentRunId := "parent"
    childKind := "worker"
    inputJson := some [("child_run_id", .str childRunId)] }

end Sample

/-- Two children with two requested ids are one run in the local gateway. -/
theorem requested_ids_collapse :
    childId .localFsm "parent" (Sample.worker "first") = .ok "parent:worker" ∧
    childId .localFsm "parent" (Sample.worker "second") = .ok "parent:worker" ∧
    ¬ Identified "parent" [Sample.worker "first", Sample.worker "second"] := by
  refine ⟨by decide +kernel, by decide +kernel, fun h => ?_⟩
  have hasked := h.asked (Sample.worker "first") List.mem_cons_self "first" (by decide +kernel) .localFsm
  exact absurd hasked (by decide +kernel)

end AgentKernel.Substrate
