import AgentKernel.Facade.Notifications
import AgentKernel.Lib.PyValue

/-! Requests as the HTTP service reads and writes them.

`serialize_dataclass` flattens a record into a dictionary, and each decoder rebuilds its
record from one by hand. -/
namespace AgentKernel.Service
open Lib

/-! ### Writing -/

section
variable (sortedOf : List PyValue → Except PyError (List PyValue))

mutual

/-- `_normalize`; `sortedOf` is what `sorted` makes of the items of a frozen set. -/
def normalize : PyValue → Except PyError PyValue
  | .dict items => .dict <$> normalizeEntries items
  | .list items | .tuple items => .list <$> normalizeItems items
  | .frozenset items => .list <$> sortedOf items
  | v => .ok v

def normalizeItems : List PyValue → Except PyError (List PyValue)
  | [] => .ok []
  | v :: rest => do
    let head ← normalize v
    let tail ← normalizeItems rest
    .ok (head :: tail)

def normalizeEntries : PyDict → Except PyError PyDict
  | [] => .ok []
  | (k, v) :: rest => do
    let head ← normalize v
    let tail ← normalizeEntries rest
    .ok ((k, head) :: tail)

end

def serializeDataclass : PyValue → Except PyError PyDict
  | .none => .ok []
  | .record _ fields => normalizeEntries sortedOf (PyValue.asdictEntries fields)
  | _ => .error ⟨.typeError, "asdict() should be called on dataclass instances"⟩

end

/-! ### What is written as it stands -/

mutual

/-- A value without tuples, frozen sets and instances. -/
def Plain : PyValue → Prop
  | .list items => PlainItems items
  | .dict items => PlainEntries items
  | .tuple _ | .frozenset _ | .record _ _ => False
  | _ => True

def PlainItems : List PyValue → Prop
  | [] => True
  | v :: rest => Plain v ∧ PlainItems rest

def PlainEntries : PyDict → Prop
  | [] => True
  | (_, v) :: rest => Plain v ∧ PlainEntries rest

end

section
variable {S : List PyValue → Except PyError (List PyValue)}

theorem map_ok_iff {α β : Type} {f : α → β} (hf : Function.Injective f) {x : Except PyError α}
    {a : α} : f <$> x = .ok (f a) ↔ x = .ok a := by
  cases x with
  | error e => exact iff_of_false (fun h => by cases h) (fun h => by cases h)
  | ok b =>
    show Except.ok (f b) = .ok (f a) ↔ _
    rw [Except.ok.injEq, Except.ok.injEq, hf.eq_iff]

theorem map_ne_ok {α β : Type} {f : α → β} {b : β} (h : ∀ a, f a ≠ b) (x : Except PyError α) :
    f <$> x ≠ .ok b := by
  intro hx
  cases x with
  | error e => cases hx
  | ok a => exact h a (Except.ok.inj hx)

mutual

/-- **A value is written as it stands exactly when it is plain.** -/
theorem normalize_asdict_iff : (v : PyValue) → (normalize S v.asdictInner = .ok v ↔ Plain v)
  | .list items =>
    (map_ok_iff (fun _ _ h => PyValue.list.inj h)).trans (normalizeItems_asdict_iff items)
  | .dict items =>
    (map_ok_iff (fun _ _ h => PyValue.dict.inj h)).trans (normalizeEntries_asdict_iff items)
  | .tuple _ => iff_of_false (map_ne_ok (fun _ h => by cases h) _) id
  | .frozenset _ => iff_of_false (map_ne_ok (fun _ h => by cases h) _) id
  | .record _ _ => iff_of_false (map_ne_ok (fun _ h => by cases h) _) id
  | .none | .bool _ | .int _ | .float _ | .str _ | .member _ _ | .object _ =>
    iff_of_true rfl trivial

theorem normalizeItems_asdict_iff :
    (items : List PyValue) →
      (normalizeItems S (PyValue.asdictItems items) = .ok items ↔ PlainItems items)
  | [] => iff_of_true rfl trivial
  | v :: rest => by
    rw [PyValue.asdictItems, normalizeItems, PlainItems, ← normalize_asdict_iff v,
      ← normalizeItems_asdict_iff rest]
    cases normalize S v.asdictInner with
    | error e => exact iff_of_false (fun h => by cases h) (fun h => by cases h.1)
    | ok head =>
      cases normalizeItems S (PyValue.asdictItems rest) with
      | error e => exact iff_of_false (fun h => by cases h) (fun h => by cases h.2)
      | ok tail => simp [bind, Except.bind]

theorem normalizeEntries_asdict_iff :
    (items : PyDict) →
      (normalizeEntries S (PyValue.asdictEntries items) = .ok items ↔ PlainEntries items)
  | [] => iff_of_true rfl trivial
  | (k, v) :: rest => by
    rw [PyValue.asdictEntries, normalizeEntries, PlainEntries, ← normalize_asdict_iff v,
      ← normalizeEntries_asdict_iff rest]
    cases normalize S v.asdictInner with
    | error e => exact iff_of_false (fun h => by cases h) (fun h => by cases h.1)
    | ok head =>
      cases normalizeEntries S (PyValue.asdictEntries rest) with
      | error e => exact iff_of_false (fun h => by cases h) (fun h => by cases h.2)
      | ok tail => simp [bind, Except.bind]

end
end

/-! ### Requests -/

def text? : Option String → PyValue
  | some s => .str s
  | none => .none

def dict? : Option PyDict → PyValue
  | some items => .dict items
  | none => .none

inductive Initiator where
  | user
  | agentCoreRunner
  | system
  deriving DecidableEq, Repr

def Initiator.text : Initiator → String
  | .user => "user"
  | .agentCoreRunner => "agent_core_runner"
  | .system => "system"

structure StartRunRequest where
  initiator : Initiator
  runKind : String
  sessionId : Option String := none
  inputRef : Option String := none
  inputJson : Option PyDict := none
  contextRef : Option String := none
  parentRunId : Option String := none
  traceContext : Option String := none
  taskContractRef : Option String := none
  initialStageId : Option String := none
  routePolicyVersion : Option String := none
  skillPolicyVersion : Option String := none
  evaluationPolicyVersion : Option String := none
  taskViewPolicyVersion : Option String := none

def StartRunRequest.record (x : StartRunRequest) : PyValue :=
  .record "StartRunRequest"
    [("initiator", .str x.initiator.text), ("run_kind", .str x.runKind),
     ("session_id", text? x.sessionId), ("input_ref", text? x.inputRef),
     ("input_json", dict? x.inputJson), ("context_ref", text? x.contextRef),
     ("parent_run_id", text? x.parentRunId), ("trace_context", text? x.traceContext),
     ("task_contract_ref", text? x.taskContractRef), ("initial_stage_id", text? x.initialStageId),
     ("route_policy_version", text? x.routePolicyVersion),
     ("skill_policy_version", text? x.skillPolicyVersion),
     ("evaluation_policy_version", text? x.evaluationPolicyVersion),
     ("task_view_policy_version", text? x.taskViewPolicyVersion)]

structure SignalRunRequest where
  runId : String
  signalType : String
  signalPayload : Option PyDict := none
  causedBy : Option String := none

def SignalRunRequest.record (x : SignalRunRequest) : PyValue :=
  .record "SignalRunRequest"
    [("run_id", .str x.runId), ("signal_type", .str x.signalType),
     ("signal_payload", dict? x.signalPayload), ("caused_by", text? x.causedBy)]

structure CancelRunRequest where
  runId : String
  reason : String
  causedBy : Option String := none

def CancelRunRequest.record (x : CancelRunRequest) : PyValue :=
  .record "CancelRunRequest"
    [("run_id", .str x.runId), ("reason", .str x.reason), ("caused_by", text? x.causedBy)]

structure ResumeRunRequest where
  runId : String
  snapshotId : Option String := none
  causedBy : Option String := none

def ResumeRunRequest.record (x : ResumeRunRequest) : PyValue :=
  .record "ResumeRunRequest"
    [("run_id", .str x.runId), ("snapshot_id", text? x.snapshotId), ("caused_by", text? x.causedBy)]

structure SpawnChildRunRequest where
  parentRunId : String
  childKind : String
  inputRef : Option String := none
  inputJson : Option PyDict := none
  contextRef : Option String := none
  taskId : Option String := none
  inheritPolicyVersions : Bool := true
  policyVersionOverrides : Option (List (String × String)) := none
  notifyParentOnComplete : Bool := true

def SpawnChildRunRequest.record (x : SpawnChildRunRequest) : PyValue :=
  .record "SpawnChildRunRequest"
    [("parent_run_id", .str x.parentRunId), ("child_kind", .str x.childKind),
     ("input_ref", text? x.inputRef), ("input_json", dict? x.inputJson),
     ("context_ref", text? x.contextRef), ("task_id", text? x.taskId),
     ("inherit_policy_versions", .bool x.inheritPolicyVersions),
     ("policy_version_overrides",
       dict? (x.policyVersionOverrides.map (List.map (fun e => (e.1, PyValue.str e.2))))),
     ("notify_parent_on_complete", .bool x.notifyParentOnComplete)]

def approvalRecord (x : Facade.ApprovalRequest) : PyValue :=
  .record "ApprovalRequest"
    [("run_id", .str x.runId), ("approval_ref", .str x.approvalRef), ("approved", .bool x.approved),
     ("reviewer_id", .str x.reviewerId), ("reason", text? x.reason), ("caused_by", text? x.causedBy)]

def openBranchRecord (x : Facade.OpenBranchRequest) : PyValue :=
  .record "OpenBranchRequest"
    [("run_id", .str x.runId), ("branch_id", .str x.branchId), ("stage_id", .str x.stageId),
     ("parent_branch_id", text? x.parentBranchId), ("proposed_by", text? x.proposedBy)]

def failureCodeMember : Option Facade.TraceFailureCode → PyValue
  | some code => .member "TraceFailureCode" code.value
  | none => .none

def branchStateUpdateRecord (x : Facade.BranchStateUpdateRequest) : PyValue :=
  .record "BranchStateUpdateRequest"
    [("run_id", .str x.runId), ("branch_id", .str x.branchId), ("new_state", .str x.newState.text),
     ("failure_code", failureCodeMember x.failureCode), ("reason", text? x.reason)]

def humanGateRecord (x : Facade.HumanGateRequest) : PyValue :=
  .record "HumanGateRequest"
    [("gate_ref", .str x.gateRef), ("gate_type", .str x.gateType.text), ("run_id", .str x.runId),
     ("trigger_reason", .str x.triggerReason), ("trigger_source", .str x.triggerSource.text),
     ("stage_id", text? x.stageId), ("branch_id", text? x.branchId),
     ("artifact_ref", text? x.artifactRef), ("caused_by", text? x.causedBy)]

structure TaskViewRecord where
  taskViewId : String
  runId : String
  selectedModelRole : String
  assembledAt : String
  decisionRef : Option String := none
  stageId : Option String := none
  branchId : Option String := none
  taskContractRef : Option String := none
  evidenceRefs : List String := []
  memoryRefs : List String := []
  knowledgeRefs : List String := []
  policyVersions : Option RunPolicyVersions := none
  schemaVersion : String := "1"

def policyVersionsFields (pv : RunPolicyVersions) : PyDict :=
  [("route_policy_version", text? pv.routePolicyVersion),
   ("acceptance_policy_version", text? pv.acceptancePolicyVersion),
   ("memory_policy_version", text? pv.memoryPolicyVersion),
   ("skill_policy_version", text? pv.skillPolicyVersion),
   ("evaluation_policy_version", text? pv.evaluationPolicyVersion),
   ("task_view_policy_version", text? pv.taskViewPolicyVersion),
   ("pinned_at", .str pv.pinnedAt)]

def policyVersionsRecord : Option RunPolicyVersions → PyValue
  | some pv => .record "RunPolicyVersions" (policyVersionsFields pv)
  | none => .none

def texts (refs : List String) : PyValue := .list (refs.map .str)

def TaskViewRecord.record (x : TaskViewRecord) : PyValue :=
  .record "TaskViewRecord"
    [("task_view_id", .str x.taskViewId), ("run_id", .str x.runId),
     ("selected_model_role", .str x.selectedModelRole), ("assembled_at", .str x.assembledAt),
     ("decision_ref", text? x.decisionRef), ("stage_id", text? x.stageId),
     ("branch_id", text? x.branchId), ("task_contract_ref", text? x.taskContractRef),
     ("evidence_refs", texts x.evidenceRefs), ("memory_refs", texts x.memoryRefs),
     ("knowledge_refs", texts x.knowledgeRefs), ("policy_versions", policyVersionsRecord x.policyVersions),
     ("schema_version", .str x.schemaVersion)]

/-! ### Reading -/

/-- `data.get(key, default)`. -/
def getOr (data : PyDict) (key : String) (default : PyValue) : PyValue := (data.lookup key).getD default

/-- `data.get(key)`. -/
def get (data : PyDict) (key : String) : PyValue := getOr data key .none

/-- `data[key]`. -/
def item (data : PyDict) (key : String) : Except PyError PyValue :=
  match data.lookup key with
  | some v => .ok v
  | none => .error ⟨.other "KeyError", Text.quoted key⟩

/-- `data.get(key) or pvs.get(key)`. -/
def flatOrNested (data : PyDict) (pvs : PyValue) (key : String) : Except PyError PyValue :=
  if (get data key).truth then .ok (get data key)
  else
    match pvs with
    | .dict items => .ok (get items key)
    | _ => .error ⟨.other "AttributeError", ""⟩

def deserializeStartRun (data : PyDict) : Except PyError PyValue := do
  let pvs := if (get data "policy_versions").truth then get data "policy_versions" else .dict []
  let routePolicyVersion ← flatOrNested data pvs "route_policy_version"
  let skillPolicyVersion ← flatOrNested data pvs "skill_policy_version"
  let evaluationPolicyVersion ← flatOrNested data pvs "evaluation_policy_version"
  let taskViewPolicyVersion ← flatOrNested data pvs "task_view_policy_version"
  .ok (.record "StartRunRequest"
    [("initiator", getOr data "initiator" (.str "user")),
     ("run_kind", getOr data "run_kind" (.str "default")),
     ("session_id", get data "session_id"), ("input_ref", .none),
     ("input_json", get data "input_json"), ("context_ref", .none),
     ("parent_run_id", get data "parent_run_id"), ("trace_context", .none),
     ("task_contract_ref", get data "task_contract_ref"),
     ("initial_stage_id", get data "initial_stage_id"),
     ("route_policy_version", routePolicyVersion), ("skill_policy_version", skillPolicyVersion),
     ("evaluation_policy_version", evaluationPolicyVersion),
     ("task_view_policy_version", taskViewPolicyVersion)])

def deserializeSignalRun (runId : String) (data : PyDict) : Except PyError PyValue := do
  let signalType ← item data "signal_type"
  .ok (.record "SignalRunRequest"
    [("run_id", .str runId), ("signal_type", signalType),
     ("signal_payload", getOr data "signal_payload" (.dict [])), ("caused_by", get data "caused_by")])

def deserializeCancelRun (runId : String) (data : PyDict) : Except PyError PyValue :=
  .ok (.record "CancelRunRequest"
    [("run_id", .str runId), ("reason", getOr data "reason" (.str "")),
     ("caused_by", get data "caused_by")])

def deserializeResumeRun (runId : String) (data : PyDict) : Except PyError PyValue :=
  .ok (.record "ResumeRunRequest"
    [("run_id", .str runId), ("snapshot_id", .none), ("caused_by", get data "caused_by")])

def deserializeSpawnChildRun (runId : String) (data : PyDict) : Except PyError PyValue := do
  let childKind ← item data "child_kind"
  .ok (.record "SpawnChildRunRequest"
    [("parent_run_id", .str runId), ("child_kind", childKind), ("input_ref", get data "input_ref"),
     ("input_json", get data "input_json"), ("context_ref", get data "context_ref"),
     ("task_id", get data "task_id"),
     ("inherit_policy_versions", getOr data "inherit_policy_versions" (.bool true)),
     ("policy_version_overrides", get data "policy_version_overrides"),
     ("notify_parent_on_complete", getOr data "notify_parent_on_complete" (.bool true))])

def deserializeApproval (runId : String) (data : PyDict) : Except PyError PyValue := do
  let approvalRef ← item data "approval_ref"
  let approved ← item data "approved"
  .ok (.record "ApprovalRequest"
    [("run_id", .str runId), ("approval_ref", approvalRef), ("approved", approved),
     ("reviewer_id", getOr data "reviewer_id" (.str "anonymous")), ("reason", get data "reason"),
     ("caused_by", get data "caused_by")])

def deserializeOpenBranch (runId : String) (data : PyDict) : Except PyError PyValue := do
  let branchId ← item data "branch_id"
  let stageId ← item data "stage_id"
  .ok (.record "OpenBranchRequest"
    [("run_id", .str runId), ("branch_id", branchId), ("stage_id", stageId),
     ("parent_branch_id", get data "parent_branch_id"), ("proposed_by", get data "proposed_by")])

def deserializeBranchStateUpdate (runId branchId : String) (data : PyDict) :
    Except PyError PyValue := do
  let newState ← item data "new_state"
  .ok (.record "BranchStateUpdateRequest"
    [("run_id", .str runId), ("branch_id", .str branchId), ("new_state", newState),
     ("failure_code", get data "failure_code"), ("reason", get data "reason")])

def deserializeHumanGate (runId : String) (data : PyDict) : Except PyError PyValue := do
  let gateRef ← item data "gate_ref"
  let gateType ← item data "gate_type"
  let triggerReason ← item data "trigger_reason"
  let triggerSource ← item data "trigger_source"
  .ok (.record "HumanGateRequest"
    [("gate_ref", gateRef), ("gate_type", gateType), ("run_id", .str runId),
     ("trigger_reason", triggerReason), ("trigger_source", triggerSource),
     ("stage_id", get data "stage_id"), ("branch_id", get data "branch_id"),
     ("artifact_ref", get data "artifact_ref"), ("caused_by", get data "caused_by")])

/-- `RunPolicyVersions(**value)`. -/
def runPolicyVersions : PyValue → Except PyError PyValue
  | .dict items =>
    match items.find? (fun e => e.1 ∉ policyVersionKeys) with
    | some e => .error ⟨.typeError,
        "RunPolicyVersions.__init__() got an unexpected keyword argument " ++ Text.quoted e.1⟩
    | none =>
      .ok (.record "RunPolicyVersions" (policyVersionKeys.map (fun key =>
        (key, getOr items key (if key = "pinned_at" then .str "" else .none)))))
  | _ => .error ⟨.typeError, "argument after ** must be a mapping"⟩

def deserializeTaskView (runId : String) (data : PyDict) : Except PyError PyValue := do
  let policyVersions ←
    if (get data "policy_versions").truth then runPolicyVersions (get data "policy_versions")
    else .ok .none
  let taskViewId ← item data "task_view_id"
  let selectedModelRole ← item data "selected_model_role"
  let assembledAt ← item data "assembled_at"
  .ok (.record "TaskViewRecord"
    [("task_view_id", taskViewId), ("run_id", .str runId),
     ("selected_model_role", selectedModelRole), ("assembled_at", assembledAt),
     ("decision_ref", get data "decision_ref"), ("stage_id", get data "stage_id"),
     ("branch_id", get data "branch_id"), ("task_contract_ref", get data "task_contract_ref"),
     ("evidence_refs", getOr data "evidence_refs" (.list [])),
     ("memory_refs", getOr data "memory_refs" (.list [])),
     ("knowledge_refs", getOr data "knowledge_refs" (.list [])),
     ("policy_versions", policyVersions), ("schema_version", .str "1")])

/-! ### Round trips -/

section
variable (S : List PyValue → Except PyError (List PyValue))

/-- The decoder makes the instance again from what is written of it. -/
def RoundTrips (decode : PyDict → Except PyError PyValue) (x : PyValue) : Prop :=
  serializeDataclass S x >>= decode = .ok x

variable {S}

/-- The fields of a plain instance are written as they stand. -/
theorem roundTrips_of_plain {decode : PyDict → Except PyError PyValue} {cls : String} {fields : PyDict}
    (h : PlainEntries fields) :
    RoundTrips S decode (.record cls fields) ↔ decode fields = .ok (.record cls fields) := by
  have written : serializeDataclass S (.record cls fields) = .ok fields :=
    (normalizeEntries_asdict_iff fields).mpr h
  rw [RoundTrips, written]
  rfl

/-- What is found in the written dictionary is the normalized field. -/
theorem lookup_written {fields data : PyDict}
    (written : normalizeEntries S (PyValue.asdictEntries fields) = .ok data) {key : String} {v : PyValue}
    (found : fields.lookup key = some v) :
    ∃ w, data.lookup key = some w ∧ normalize S v.asdictInner = .ok w := by
  induction fields generalizing data with
  | nil => cases found
  | cons entry rest ih =>
    obtain ⟨k, u⟩ := entry
    rw [PyValue.asdictEntries, normalizeEntries] at written
    cases hu : normalize S u.asdictInner with
    | error e =>
      rw [hu] at written
      cases written
    | ok head =>
      cases hrest : normalizeEntries S (PyValue.asdictEntries rest) with
      | error e =>
        rw [hu, hrest] at written
        cases written
      | ok tail =>
        rw [hu, hrest] at written
        obtain rfl := Except.ok.inj written
        rw [List.lookup_cons] at found ⊢
        split at found
        · cases found
          exact ⟨head, rfl, hu⟩
        · exact ih hrest found

/-- A field the decoder takes over comes back only when it is plain. -/
theorem plain_of_roundTrips {decode : PyDict → Except PyError PyValue} {cls : String}
    {fields : PyDict} {v : PyValue} (key : String) (found : fields.lookup key = some v)
    (takes : ∀ data, decode data = .ok (.record cls fields) → ∀ w, data.lookup key = some w → w = v)
    (h : RoundTrips S decode (.record cls fields)) : Plain v := by
  change normalizeEntries S (PyValue.asdictEntries fields) >>= decode = _ at h
  cases written : normalizeEntries S (PyValue.asdictEntries fields) with
  | error e =>
    rw [written] at h
    cases h
  | ok data =>
    rw [written] at h
    obtain ⟨w, hw, hnorm⟩ := lookup_written written found
    obtain rfl := takes data h w hw
    exact (normalize_asdict_iff w).mp hnorm

@[simp] theorem plain_text? (s : Option String) : Plain (text? s) := by
  cases s <;> exact trivial

@[simp] theorem plain_str (s : String) : Plain (.str s) := trivial

@[simp] theorem plain_bool (b : Bool) : Plain (.bool b) := trivial

@[simp] theorem plain_failureCodeMember (code : Option Facade.TraceFailureCode) :
    Plain (failureCodeMember code) := by
  cases code <;> exact trivial

@[simp] theorem plain_texts (refs : List String) : Plain (texts refs) := by
  induction refs with
  | nil => exact trivial
  | cons ref rest ih => exact ⟨trivial, ih⟩

@[simp] theorem plain_textDict (items : Option (List (String × String))) :
    Plain (dict? (items.map (List.map (fun e => (e.1, PyValue.str e.2))))) := by
  cases items with
  | none => exact trivial
  | some items =>
    induction items with
    | nil => exact trivial
    | cons entry rest ih => exact ⟨trivial, ih⟩

theorem none_eq_text? {s : Option String} : .none = text? s ↔ s = none := by
  cases s <;> simp [text?]

/-- A version that is empty is looked for in the nested versions, which no request has. -/
theorem flatOrNested_text {data : PyDict} {key : String} {s : Option String}
    (h : get data key = text? s) :
    flatOrNested data (.dict []) key = .ok (if s = some "" then .none else text? s) := by
  unfold flatOrNested
  rw [h]
  cases s with
  | none => rfl
  | some s =>
    by_cases hs : s = ""
    · subst hs
      rfl
    · simp [text?, PyValue.truth, hs]

theorem kept_iff {s : Option String} :
    (if s = some "" then .none else text? s) = text? s ↔ s ≠ some "" := by
  split
  case isTrue h => simp [h, text?]
  case isFalse h => simp [h]

theorem ok_of_bind {α β : Type} {x : Except PyError α} {f : α → Except PyError β} {b : β}
    (h : x >>= f = .ok b) : ∃ a, x = .ok a ∧ f a = .ok b := by
  cases x with
  | error e => cases h
  | ok a => exact ⟨a, rfl, h⟩

/-- A request without nested versions. -/
theorem deserializeStartRun_of_flat {data : PyDict} {s t u v : Option String}
    (nested : get data "policy_versions" = .none) (route : get data "route_policy_version" = text? s)
    (skill : get data "skill_policy_version" = text? t)
    (evaluation : get data "evaluation_policy_version" = text? u)
    (taskView : get data "task_view_policy_version" = text? v) :
    deserializeStartRun data = .ok (.record "StartRunRequest"
      [("initiator", getOr data "initiator" (.str "user")),
       ("run_kind", getOr data "run_kind" (.str "default")),
       ("session_id", get data "session_id"), ("input_ref", .none),
       ("input_json", get data "input_json"), ("context_ref", .none),
       ("parent_run_id", get data "parent_run_id"), ("trace_context", .none),
       ("task_contract_ref", get data "task_contract_ref"),
       ("initial_stage_id", get data "initial_stage_id"),
       ("route_policy_version", if s = some "" then .none else text? s),
       ("skill_policy_version", if t = some "" then .none else text? t),
       ("evaluation_policy_version", if u = some "" then .none else text? u),
       ("task_view_policy_version", if v = some "" then .none else text? v)]) := by
  simp only [deserializeStartRun, nested, PyValue.truth, Bool.false_eq_true, if_false]
  rw [flatOrNested_text route, flatOrNested_text skill, flatOrNested_text evaluation,
    flatOrNested_text taskView]
  rfl

theorem startRun_round_trip (x : StartRunRequest) :
    RoundTrips S deserializeStartRun x.record ↔
      x.inputRef = none ∧ x.contextRef = none ∧ x.traceContext = none ∧ x.routePolicyVersion ≠ some "" ∧
      x.skillPolicyVersion ≠ some "" ∧ x.evaluationPolicyVersion ≠ some "" ∧
      x.taskViewPolicyVersion ≠ some "" ∧ Plain (dict? x.inputJson) := by
  by_cases hp : Plain (dict? x.inputJson)
  · refine (roundTrips_of_plain (by simp [PlainEntries, hp])).trans ?_
    rw [deserializeStartRun_of_flat rfl (s := x.routePolicyVersion) (t := x.skillPolicyVersion)
      (u := x.evaluationPolicyVersion) (v := x.taskViewPolicyVersion) rfl rfl rfl rfl]
    simp only [Except.ok.injEq, PyValue.record.injEq, List.cons.injEq,
      Prod.mk.injEq, true_and, and_true, kept_iff, none_eq_text?]
    simp [get, getOr, List.lookup_cons, hp]
  · refine iff_of_false (fun h => hp ?_) (fun h => hp h.2.2.2.2.2.2.2)
    refine plain_of_roundTrips "input_json" rfl (fun data hdata w hw => ?_) h
    obtain ⟨route, _, hdata⟩ := ok_of_bind hdata
    obtain ⟨skill, _, hdata⟩ := ok_of_bind hdata
    obtain ⟨evaluation, _, hdata⟩ := ok_of_bind hdata
    obtain ⟨taskView, _, hdata⟩ := ok_of_bind hdata
    have hfields := Except.ok.inj hdata
    simp only [get, getOr, hw, Option.getD_some] at hfields
    grind

theorem signalRun_round_trip (x : SignalRunRequest) :
    RoundTrips S (deserializeSignalRun x.runId) x.record ↔ Plain (dict? x.signalPayload) := by
  constructor
  · refine plain_of_roundTrips "signal_payload" rfl (fun data hdata w hw => ?_)
    obtain ⟨kind, _, hdata⟩ := ok_of_bind hdata
    have hfields := Except.ok.inj hdata
    simp [getOr, hw] at hfields
    exact hfields.2.1
  · intro h
    exact (roundTrips_of_plain (by simp [PlainEntries, h])).mpr rfl

theorem cancelRun_round_trip (x : CancelRunRequest) :
    RoundTrips S (deserializeCancelRun x.runId) x.record :=
  (roundTrips_of_plain (by simp [PlainEntries])).mpr rfl

theorem resumeRun_round_trip (x : ResumeRunRequest) :
    RoundTrips S (deserializeResumeRun x.runId) x.record ↔ x.snapshotId = none := by
  refine (roundTrips_of_plain (by simp [PlainEntries])).trans ?_
  show Except.ok _ = Except.ok _ ↔ _
  simp [none_eq_text?, get, getOr, List.lookup_cons]

theorem spawnChildRun_round_trip (x : SpawnChildRunRequest) :
    RoundTrips S (deserializeSpawnChildRun x.parentRunId) x.record ↔ Plain (dict? x.inputJson) := by
  constructor
  · refine plain_of_roundTrips "input_json" rfl (fun data hdata w hw => ?_)
    obtain ⟨kind, _, hdata⟩ := ok_of_bind hdata
    have hfields := Except.ok.inj hdata
    simp [get, getOr, hw] at hfields
    exact hfields.2.2.1
  · intro h
    exact (roundTrips_of_plain (by simp [PlainEntries, h])).mpr rfl

theorem approval_round_trip (x : Facade.ApprovalRequest) :
    RoundTrips S (deserializeApproval x.runId) (approvalRecord x) :=
  (roundTrips_of_plain (by simp [PlainEntries])).mpr rfl

theorem openBranch_round_trip (x : Facade.OpenBranchRequest) :
    RoundTrips S (deserializeOpenBranch x.runId) (openBranchRecord x) :=
  (roundTrips_of_plain (by simp [PlainEntries])).mpr rfl

/-- The failure code is still the member of its enumeration. -/
theorem branchStateUpdate_round_trip (x : Facade.BranchStateUpdateRequest) :
    RoundTrips S (deserializeBranchStateUpdate x.runId x.branchId) (branchStateUpdateRecord x) :=
  (roundTrips_of_plain (by simp [PlainEntries])).mpr rfl

theorem humanGate_round_trip (x : Facade.HumanGateRequest) :
    RoundTrips S (deserializeHumanGate x.runId) (humanGateRecord x) :=
  (roundTrips_of_plain (by simp [PlainEntries])).mpr rfl

theorem plain_policyVersionsFields (pv : RunPolicyVersions) : PlainEntries (policyVersionsFields pv) := by
  simp [policyVersionsFields, PlainEntries]

theorem normalizeEntries_asdict_cons {k : String} {v w : PyValue} {rest tail : PyDict}
    (hv : normalize S v.asdictInner = .ok w)
    (hrest : normalizeEntries S (PyValue.asdictEntries rest) = .ok tail) :
    normalizeEntries S (PyValue.asdictEntries ((k, v) :: rest)) = .ok ((k, w) :: tail) := by
  rw [PyValue.asdictEntries, normalizeEntries, hv, hrest]
  rfl

theorem normalize_policyVersions (pv : Option RunPolicyVersions) :
    normalize S (policyVersionsRecord pv).asdictInner = .ok (match pv with
      | some pv => .dict (policyVersionsFields pv)
      | none => .none) := by
  cases pv with
  | none => rfl
  | some pv =>
    show PyValue.dict <$> normalizeEntries S (PyValue.asdictEntries (policyVersionsFields pv)) = _
    rw [(normalizeEntries_asdict_iff _).mpr (plain_policyVersionsFields pv)]
    rfl

theorem taskView_round_trip (x : TaskViewRecord) :
    RoundTrips S (deserializeTaskView x.runId) x.record ↔ x.schemaVersion = "1" := by
  have str := fun s => (normalize_asdict_iff (S := S) _).mpr (plain_str s)
  have text := fun s => (normalize_asdict_iff (S := S) _).mpr (plain_text? s)
  have refs := fun s => (normalize_asdict_iff (S := S) _).mpr (plain_texts s)
  unfold RoundTrips
  rw [show serializeDataclass S x.record = _ from
    normalizeEntries_asdict_cons (str _) <| normalizeEntries_asdict_cons (str _) <|
    normalizeEntries_asdict_cons (str _) <| normalizeEntries_asdict_cons (str _) <|
    normalizeEntries_asdict_cons (text _) <| normalizeEntries_asdict_cons (text _) <|
    normalizeEntries_asdict_cons (text _) <| normalizeEntries_asdict_cons (text _) <|
    normalizeEntries_asdict_cons (refs _) <| normalizeEntries_asdict_cons (refs _) <|
    normalizeEntries_asdict_cons (refs _) <|
    normalizeEntries_asdict_cons (normalize_policyVersions x.policyVersions) <|
    normalizeEntries_asdict_cons (str _) rfl]
  suffices reads : deserializeTaskView x.runId _ =
      .ok ({ x with schemaVersion := "1" } : TaskViewRecord).record by
    refine Iff.trans (Eq.congr_left reads) ?_
    simp only [TaskViewRecord.record, Except.ok.injEq, PyValue.record.injEq, List.cons.injEq,
      Prod.mk.injEq, PyValue.str.injEq, true_and, and_true]
    exact eq_comm
  obtain ⟨_, _, _, _, _, _, _, _, _, _, _, versions, _⟩ := x
  cases versions with
  | none => rfl
  | some pv => rfl

end

/-- **Which requests survive.** Every decoder but those of cancellations, approvals, branches and
human gates loses something: fields it never reads, versions that are empty texts, schema
versions, and whatever in a payload is not written as it stands. -/
theorem http_round_trip_iff (S : List PyValue → Except PyError (List PyValue)) :
    (∀ x : StartRunRequest, RoundTrips S deserializeStartRun x.record ↔
      x.inputRef = none ∧ x.contextRef = none ∧ x.traceContext = none ∧ x.routePolicyVersion ≠ some "" ∧
      x.skillPolicyVersion ≠ some "" ∧ x.evaluationPolicyVersion ≠ some "" ∧
      x.taskViewPolicyVersion ≠ some "" ∧ Plain (dict? x.inputJson)) ∧
    (∀ x : SignalRunRequest, RoundTrips S (deserializeSignalRun x.runId) x.record ↔
      Plain (dict? x.signalPayload)) ∧
    (∀ x : CancelRunRequest, RoundTrips S (deserializeCancelRun x.runId) x.record) ∧
    (∀ x : ResumeRunRequest, RoundTrips S (deserializeResumeRun x.runId) x.record ↔
      x.snapshotId = none) ∧
    (∀ x : SpawnChildRunRequest, RoundTrips S (deserializeSpawnChildRun x.parentRunId) x.record ↔
      Plain (dict? x.inputJson)) ∧
    (∀ x : Facade.ApprovalRequest, RoundTrips S (deserializeApproval x.runId) (approvalRecord x)) ∧
    (∀ x : Facade.OpenBranchRequest,
      RoundTrips S (deserializeOpenBranch x.runId) (openBranchRecord x)) ∧
    (∀ x : Facade.BranchStateUpdateRequest,
      RoundTrips S (deserializeBranchStateUpdate x.runId x.branchId) (branchStateUpdateRecord x)) ∧
    (∀ x : Facade.HumanGateRequest, RoundTrips S (deserializeHumanGate x.runId) (humanGateRecord x)) ∧
    (∀ x : TaskViewRecord, RoundTrips S (deserializeTaskView x.runId) x.record ↔
      x.schemaVersion = "1") :=
  ⟨startRun_round_trip, signalRun_round_trip, cancelRun_round_trip, resumeRun_round_trip,
    spawnChildRun_round_trip, approval_round_trip, openBranch_round_trip,
    branchStateUpdate_round_trip, humanGate_round_trip, taskView_round_trip⟩

/-- A request to resume from a snapshot comes back as one to resume from anywhere. -/
theorem resume_loses_snapshot :
    serializeDataclass .ok (ResumeRunRequest.record ⟨"run-1", some "snap-1", none⟩) >>=
        deserializeResumeRun "run-1" = .ok (ResumeRunRequest.record ⟨"run-1", none, none⟩) ∧
    ¬ RoundTrips .ok (deserializeResumeRun "run-1")
      (ResumeRunRequest.record ⟨"run-1", some "snap-1", none⟩) := by
  have back : serializeDataclass .ok (ResumeRunRequest.record ⟨"run-1", some "snap-1", none⟩) >>=
      deserializeResumeRun "run-1" = .ok (ResumeRunRequest.record ⟨"run-1", none, none⟩) := rfl
  refine ⟨back, fun h => ?_⟩
  have same := back.symm.trans h
  simp [ResumeRunRequest.record, text?] at same

end AgentKernel.Service
