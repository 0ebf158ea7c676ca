import AgentKernel.Lib.Run
import AgentKernel.Facade.PolicyVersions

/-! The workflow ids of the Temporal gateway.

A run is started under its run id behind the prefix, and that is where signals,
cancellations and queries for the run id go. A child is started under an id that also
names its parent, so nothing sent to its run id arrives (`child_unreachable`), and its id
can be the id of another run. A run that tells its parent that it is done takes a parent id
that begins with the prefix for a workflow id. The addresses of a history of starts hold
exactly when neither occurs in it (`addresses_hold_iff`). -/
namespace AgentKernel.Substrate
open Lib Facade Workflow

/-! ### Ids -/

/-- The fields that make up workflow ids. -/
structure TemporalGatewayConfig where
  workflowIdPrefix : String := "run"
  childWorkflowSuffix : String := "child"

namespace TemporalGatewayConfig

def workflowIdForRun (config : TemporalGatewayConfig) (runId : String) : String :=
  config.workflowIdPrefix ++ ":" ++ runId

def workflowIdForChild (config : TemporalGatewayConfig) (parentRunId childRunId : String) : String :=
  config.workflowIdPrefix ++ ":" ++ config.childWorkflowSuffix ++ ":" ++ parentRunId ++ ":" ++ childRunId

/-- The workflow whose handle `signal_workflow`, `cancel_workflow` and `query_projection`
take for a run id. -/
def addressed (config : TemporalGatewayConfig) (runId : String) : String :=
  config.workflowIdForRun runId

end TemporalGatewayConfig

/-- `_workflow_id_for_parent_run`, with the prefix of the worker's dependency bundle. -/
def workflowIdForParentRun (parentRunId workflowIdPrefix : String) : String :=
  if Text.startsWith parentRunId (workflowIdPrefix ++ ":") then parentRunId
  else workflowIdPrefix ++ ":" ++ parentRunId

/-- Where `_notify_parent_child_completed` sends its signal. Without a parent, or without an id
of its own, a run sends none. -/
def notified (workflowIdPrefix : String) (input : RunInput) : Option String :=
  if input.runId = "" then none
  else (Text.orElse input.parentRunId none).map (workflowIdForParentRun · workflowIdPrefix)

/-! ### Starts -/

/-- A workflow the Temporal client has started. -/
structure StartedWorkflow where
  workflowId : String
  input : RunInput

/-- A call of the gateway; the client may refuse to start the workflow, and the call raises. -/
inductive StartCall where
  | startWorkflow (request : StartRunRequest) (accepted : Bool)
  | startChildWorkflow (parentRunId : String) (request : SpawnChildRunRequest) (accepted : Bool)

/-- What the call asks the client to start. -/
def StartCall.workflow (config : TemporalGatewayConfig) : StartCall → StartedWorkflow
  | .startWorkflow request _ =>
    let input := Gateway.temporalSdk.runInput request
    ⟨config.workflowIdForRun input.runId, input⟩
  | .startChildWorkflow parentRunId request _ =>
    let input := temporalChildInput { request with parentRunId := parentRunId }
    ⟨config.workflowIdForChild parentRunId input.runId, input⟩

def StartCall.accepted : StartCall → Bool
  | .startWorkflow _ accepted | .startChildWorkflow _ _ accepted => accepted

def startNext (config : TemporalGatewayConfig) (started : List StartedWorkflow) (call : StartCall) :
    List StartedWorkflow :=
  if call.accepted then started ++ [call.workflow config] else started

/-! ### What is asked of the addresses -/

/-- Every run id that was returned reaches the workflow it was returned for, no two share a
workflow, and a run finds the workflow of its parent. -/
structure AddressesHold (config : TemporalGatewayConfig) (workerPrefix : String)
    (started : List StartedWorkflow) : Prop where
  reached : ∀ s ∈ started, config.addressed s.input.runId = s.workflowId
  apart : ∀ s ∈ started, ∀ s' ∈ started, s.workflowId = s'.workflowId → s.input.runId = s'.input.runId
  parents : ∀ s ∈ started, ∀ parent ∈ started, s.input.parentRunId = some parent.input.runId →
    ∀ workflowId, notified workerPrefix s.input = some workflowId → workflowId = parent.workflowId

/-- The run of a direct start, one with an id, names a parent that is in the history. -/
def NamesParent (calls : List StartCall) (parentRunId : String) : Prop :=
  ∃ request, .startWorkflow request true ∈ calls ∧ resolveRunId request ≠ "" ∧
    request.parentRunId = some parentRunId ∧
    ∃ request', .startWorkflow request' true ∈ calls ∧ resolveRunId request' = parentRunId

/-- No child is started as a child, and where a run that will tell its parent names one of the
history, the worker has the prefix of the gateway and the id of the parent does not begin with
it. -/
structure Plain (config : TemporalGatewayConfig) (workerPrefix : String) (calls : List StartCall) :
    Prop where
  childless : ∀ parentRunId request, .startChildWorkflow parentRunId request true ∉ calls
  parents : ∀ parentRunId, parentRunId ≠ "" → NamesParent calls parentRunId →
    workerPrefix = config.workflowIdPrefix ∧
      ¬ Text.startsWith parentRunId (config.workflowIdPrefix ++ ":")

/-! ### Comparing ids -/

theorem colon_length : ":".length = 1 := by decide

variable (config : TemporalGatewayConfig)

theorem workflowIdForRun_inj {runId runId' : String} :
    config.workflowIdForRun runId = config.workflowIdForRun runId' ↔ runId = runId' :=
  String.append_right_inj (config.workflowIdPrefix ++ ":")

/-- **A child is not where its run id leads.** -/
theorem child_unreachable (parentRunId childRunId : String) :
    config.addressed childRunId ≠ config.workflowIdForChild parentRunId childRunId := by
  intro h
  have hlength := congrArg String.length h
  simp only [TemporalGatewayConfig.addressed, TemporalGatewayConfig.workflowIdForRun,
    TemporalGatewayConfig.workflowIdForChild, String.length_append, colon_length] at hlength
  omega

/-- A run id is behind the prefix exactly when the worker has the gateway's prefix and does
not find it in the id already. -/
theorem parent_found_iff (workerPrefix parentRunId : String) :
    workflowIdForParentRun parentRunId workerPrefix = config.workflowIdForRun parentRunId ↔
      workerPrefix = config.workflowIdPrefix ∧
        ¬ Text.startsWith parentRunId (config.workflowIdPrefix ++ ":") := by
  have hlonger : parentRunId ≠ config.workflowIdForRun parentRunId := by
    intro h
    have hlength := congrArg String.length h
    simp only [TemporalGatewayConfig.workflowIdForRun, String.length_append, colon_length] at hlength
    omega
  unfold workflowIdForParentRun
  split
  · rename_i hstarts
    refine iff_of_false hlonger (fun ⟨hsame, hnot⟩ => hnot ?_)
    rw [← hsame]
    exact hstarts
  · rename_i hnot
    constructor
    · intro h
      have hsame : workerPrefix = config.workflowIdPrefix :=
        (String.append_left_inj ":").mp ((String.append_left_inj parentRunId).mp h)
      exact ⟨hsame, hsame ▸ hnot⟩
    · rintro ⟨rfl, _⟩
      rfl

/-! ### Histories -/

theorem run_startNext (started : List StartedWorkflow) (calls : List StartCall) :
    run (startNext config) started calls =
      started ++ (calls.filter StartCall.accepted).map (StartCall.workflow config) := by
  induction calls generalizing started with
  | nil => simp
  | cons call rest ih =>
    rw [run_cons, ih, startNext]
    cases haccepted : call.accepted <;> simp [haccepted]

theorem mem_started {calls : List StartCall} {s : StartedWorkflow} :
    s ∈ run (startNext config) [] calls ↔ ∃ call ∈ calls, call.accepted ∧ call.workflow config = s := by
  rw [run_startNext]
  simp [List.mem_map, List.mem_filter, and_assoc]

theorem started_run {calls : List StartCall} {request : StartRunRequest}
    (h : .startWorkflow request true ∈ calls) :
    (StartCall.startWorkflow request true).workflow config ∈ run (startNext config) [] calls :=
  (mem_started config).mpr ⟨_, h, rfl, rfl⟩

/-- Without children, what was started is what the direct starts ask for. -/
theorem started_plain {calls : List StartCall}
    (h : ∀ parentRunId request, .startChildWorkflow parentRunId request true ∉ calls)
    {s : StartedWorkflow} (hs : s ∈ run (startNext config) [] calls) :
    ∃ request, .startWorkflow request true ∈ calls ∧
      s = ⟨config.workflowIdForRun (resolveRunId request), Gateway.temporalSdk.runInput request⟩ := by
  obtain ⟨call, hmem, haccepted, rfl⟩ := (mem_started config).mp hs
  cases call with
  | startWorkflow request accepted =>
    cases haccepted
    exact ⟨request, hmem, rfl⟩
  | startChildWorkflow parentRunId request accepted =>
    cases haccepted
    exact absurd hmem (h parentRunId request)

theorem notified_eq {workerPrefix parentRunId : String} {input : RunInput} (hrun : input.runId ≠ "")
    (h : input.parentRunId = some parentRunId) (hne : parentRunId ≠ "") :
    notified workerPrefix input = some (workflowIdForParentRun parentRunId workerPrefix) := by
  simp only [notified, h, Text.orElse, if_neg hrun, if_neg hne, Option.map_some]

/-- A notice comes from a run with an id about a parent with one. -/
theorem of_notified {workerPrefix workflowId : String} {input : RunInput}
    (h : notified workerPrefix input = some workflowId) :
    input.runId ≠ "" ∧ ∃ parentRunId, input.parentRunId = some parentRunId ∧ parentRunId ≠ "" := by
  unfold notified at h
  split at h
  · cases h
  · rename_i hrun
    obtain ⟨parentRunId, hparent, _⟩ := Option.map_eq_some_iff.mp h
    exact ⟨hrun, parentRunId, Text.orElse_none_iff.mp hparent⟩

/-- **When Temporal addresses hold.** For every configuration, every prefix the worker is
given and every history of starts, the run ids returned reach their own workflows, no two of
them share one, and every run that tells its parent finds it, exactly when no child is started
as a child and no such run names a parent whose id begins with the prefix or that the worker
looks for behind another prefix. -/
theorem addresses_hold_iff (workerPrefix : String) (calls : List StartCall) :
    AddressesHold config workerPrefix (run (startNext config) [] calls) ↔
      Plain config workerPrefix calls := by
  constructor
  · intro h
    refine ⟨fun parentRunId request hmem => ?_, fun parentRunId hne hnames => ?_⟩
    · have hstarted := (mem_started config).mpr ⟨_, hmem, rfl, rfl⟩
      exact child_unreachable config parentRunId _ (h.reached _ hstarted)
    · obtain ⟨request, hmem, hown, hparent, request', hmem', hrun⟩ := hnames
      have hfound := h.parents _ (started_run config hmem) _ (started_run config hmem')
        (by rw [← hrun] at hparent; exact hparent) _ (notified_eq hown hparent hne)
      refine (parent_found_iff config workerPrefix parentRunId).mp (hfound.trans ?_)
      rw [← hrun]
      rfl
  · intro h
    refine ⟨fun s hs => ?_, fun s hs s' hs' hsame => ?_, fun s hs parent hparent hnames workflowId hsent => ?_⟩
    · obtain ⟨request, _, rfl⟩ := started_plain config h.childless hs
      rfl
    · obtain ⟨request, _, rfl⟩ := started_plain config h.childless hs
      obtain ⟨request', _, rfl⟩ := started_plain config h.childless hs'
      exact (workflowIdForRun_inj config).mp hsame
    · obtain ⟨request, hmem, rfl⟩ := started_plain config h.childless hs
      obtain ⟨request', hmem', rfl⟩ := started_plain config h.childless hparent
      obtain ⟨hown, parentRunId, hparentRunId, hne⟩ := of_notified hsent
      obtain rfl : resolveRunId request' = parentRunId := Option.some.inj (hnames.symm.trans hparentRunId)
      rw [notified_eq hown hnames hne] at hsent
      rw [← Option.some.inj hsent]
      exact (parent_found_iff config workerPrefix _).mpr
        (h.parents _ hne ⟨request, hmem, hown, hnames, request', hmem', rfl⟩)

namespace Sample

def parentRun : StartCall :=
  .startWorkflow
    { runKind := "work"
      inputJson := some [("run_id", .str "p")] } true

def childRun : StartCall :=
  .startChildWorkflow "p"
    { parentRunId := "p"
      childKind := "work"
      inputJson := some [("child_run_id", .str "c")] } true

end Sample

/-- A child of the run `p` gets the run id `c` and is started elsewhere, where a run that was
started as `child:p:c` would be. -/
theorem child_lost :
    (Sample.childRun.workflow {}).input.runId = "c" ∧
    (Sample.childRun.workflow {}).workflowId = "run:child:p:c" ∧
    TemporalGatewayConfig.addressed {} "child:p:c" = "run:child:p:c" ∧
    ¬ AddressesHold {} "run" (run (startNext {}) [] [Sample.parentRun, Sample.childRun]) := by
  refine ⟨by decide +kernel, by decide +kernel, by decide +kernel, fun h => ?_⟩
  have hreached := h.reached (Sample.childRun.workflow {})
    ((mem_started {}).mpr ⟨Sample.childRun, by simp, rfl, rfl⟩)
  exact absurd hreached (by decide +kernel)

end AgentKernel.Substrate
