import AgentKernel.Lib.Run
import AgentKernel.Persistence.ProjectionCache

/-! The SQLite log of task views.

The first record written under an id stays, and a bind only replaces its decision. The columns
hold the lists and the policy versions of a record as JSON texts, and the dictionary that is made of
policy versions has five of their seven fields. So a record is read back as it was written, with
the last decision bound to it, exactly if its policy versions have neither an acceptance nor a
memory version (`task_views_round_trip_iff`). -/
namespace AgentKernel.Persistence
open Lib

/-! ### Records and rows -/

structure TaskViewRecord where
  taskViewId : String
  runId : String
  selectedModelRole : String
  assembledAt : String
  decisionRef : Option String := none
  stageId : Option String := none
  branchId : Option String := none
  taskContractRef : Option String := none
  evidenceRefs : List String := []
  memoryRefs : List String := []
  knowledgeRefs : List String := []
  policyVersions : Option RunPolicyVersions := none
  schemaVersion : String := "1"
  deriving DecidableEq, Repr

/-- A row of `task_view_log`. -/
structure TaskViewRow where
  taskViewId : String
  runId : String
  decisionRef : Option String
  selectedModelRole : String
  assembledAt : String
  stageId : Option String
  branchId : Option String
  taskContractRef : Option String
  evidenceRefs : String
  memoryRefs : String
  knowledgeRefs : String
  policyVersionsJson : Option String
  schemaVersion : String

def TaskViewRow.setDecision (decisionRef : String) (row : TaskViewRow) : TaskViewRow :=
  { row with decisionRef := some decisionRef }

/-- `_policy_versions_to_dict`. -/
def policyVersionsToDict : Option RunPolicyVersions → Value
  | none => .none
  | some pv => .dict
    [("route_policy_version", optionalText pv.routePolicyVersion),
     ("skill_policy_version", optionalText pv.skillPolicyVersion),
     ("evaluation_policy_version", optionalText pv.evaluationPolicyVersion),
     ("task_view_policy_version", optionalText pv.taskViewPolicyVersion),
     ("pinned_at", .str pv.pinnedAt)]

/-- `json.dumps` of a list of references. -/
def refsText (refs : List String) : String := JsonText.text (.list (refs.map .str))

/-- The values of the `INSERT`. -/
def TaskViewRecord.row (record : TaskViewRecord) : TaskViewRow where
  taskViewId := record.taskViewId
  runId := record.runId
  decisionRef := record.decisionRef
  selectedModelRole := record.selectedModelRole
  assembledAt := record.assembledAt
  stageId := record.stageId
  branchId := record.branchId
  taskContractRef := record.taskContractRef
  evidenceRefs := refsText record.evidenceRefs
  memoryRefs := refsText record.memoryRefs
  knowledgeRefs := refsText record.knowledgeRefs
  policyVersionsJson := some (JsonText.text (policyVersionsToDict record.policyVersions))
  schemaVersion := record.schemaVersion

section
variable (floatOf : List Char → String)

def jsonLoads (text : String) : Except PyError Value :=
  match JsonText.loads floatOf text with
  | some v => .ok v
  | none => .error ⟨.other "JSONDecodeError", ""⟩

/-- `RunPolicyVersions(**pv_dict) if pv_dict else None`. -/
def versionsOrNone : Value → Except PyError (Option RunPolicyVersions)
  | .none | .bool false | .int 0 | .float "0.0" | .float "-0.0" | .str "" | .list [] | .dict [] =>
    .ok none
  | .dict entries => some <$> policyVersionsOf entries
  | _ => .error ⟨.typeError,
      "agent_kernel.kernel.contracts.RunPolicyVersions() argument after ** must be a mapping"⟩

def policyVersionsFrom : Option String → Except PyError (Option RunPolicyVersions)
  | none | some "" => .ok none
  | some text => do versionsOrNone (← jsonLoads floatOf text)

/-- `_row_to_record`. -/
def rowToRecord (row : TaskViewRow) : Except PyError TaskViewRecord := do
  let pv ← policyVersionsFrom floatOf row.policyVersionsJson
  return {
    taskViewId := row.taskViewId
    runId := row.runId
    decisionRef := row.decisionRef
    selectedModelRole := row.selectedModelRole
    assembledAt := row.assembledAt
    stageId := row.stageId
    branchId := row.branchId
    taskContractRef := row.taskContractRef
    evidenceRefs := ← asTexts (← jsonLoads floatOf row.evidenceRefs)
    memoryRefs := ← asTexts (← jsonLoads floatOf row.memoryRefs)
    knowledgeRefs := ← asTexts (← jsonLoads floatOf row.knowledgeRefs)
    policyVersions := pv
    schemaVersion := row.schemaVersion }

end

/-! ### The log -/

abbrev TaskViewLog := Table TaskViewRow String TaskViewRow.taskViewId

namespace TaskViewLog

/-- `ON CONFLICT(task_view_id) DO NOTHING`. -/
def write (log : TaskViewLog) (record : TaskViewRecord) : TaskViewLog :=
  (log.insert record.row).getD log

def getById (floatOf : List Char → String) (log : TaskViewLog) (taskViewId : String) :
    Except PyError (Option TaskViewRecord) :=
  match log.select taskViewId with
  | some row => some <$> rowToRecord floatOf row
  | none => .ok none

def bindToDecision (log : TaskViewLog) (taskViewId decisionRef : String) : TaskViewLog :=
  log.update taskViewId (TaskViewRow.setDecision decisionRef) (fun _ => rfl)

end TaskViewLog

inductive TaskViewCall where
  | write (record : TaskViewRecord)
  | bindToDecision (taskViewId decisionRef : String)

def TaskViewCall.apply (log : TaskViewLog) : TaskViewCall → TaskViewLog
  | .write record => log.write record
  | .bindToDecision taskViewId decisionRef => log.bindToDecision taskViewId decisionRef

/-- An initially empty log after the calls. -/
def viewsAfter (calls : List TaskViewCall) : TaskViewLog := run TaskViewCall.apply Table.empty calls

/-! ### What is asked of it -/

/-- The first record written under the id, and the calls after it. -/
def firstWrite (taskViewId : String) :
    List TaskViewCall → Option (TaskViewRecord × List TaskViewCall)
  | [] => none
  | .write record :: later =>
    if record.taskViewId = taskViewId then some (record, later) else firstWrite taskViewId later
  | .bindToDecision _ _ :: later => firstWrite taskViewId later

def TaskViewCall.boundTo (taskViewId : String) : TaskViewCall → Option String
  | .write _ => none
  | .bindToDecision bound decisionRef => if bound = taskViewId then some decisionRef else none

/-- The decision of the last bind of the id. -/
def lastBound (taskViewId : String) (calls : List TaskViewCall) : Option String :=
  (calls.filterMap (TaskViewCall.boundTo taskViewId)).getLast?

/-- The first record written under the id, with the decision last bound to it since. -/
def expectedView (calls : List TaskViewCall) (taskViewId : String) : Option TaskViewRecord :=
  (firstWrite taskViewId calls).map (fun found =>
    { found.1 with decisionRef := (lastBound taskViewId found.2).or found.1.decisionRef })

/-- **The round trip**, after the calls. -/
structure RoundTrips (floatOf : List Char → String) (calls : List TaskViewCall) : Prop where
  absent : ∀ i, (viewsAfter calls).getById floatOf i = .ok none ↔
    ∀ record, .write record ∈ calls → record.taskViewId ≠ i
  reads : ∀ i, (viewsAfter calls).getById floatOf i = .ok (expectedView calls i)
  frame : ∀ i decisionRef j, j ≠ i →
    ((viewsAfter calls).bindToDecision i decisionRef).getById floatOf j =
      (viewsAfter calls).getById floatOf j

/-- The versions that the dictionary keeps. -/
def storedVersions (pv : RunPolicyVersions) : RunPolicyVersions :=
  { pv with acceptancePolicyVersion := none, memoryPolicyVersion := none }

/-- The record as it is read back. -/
def TaskViewRecord.stored (record : TaskViewRecord) : TaskViewRecord :=
  { record with policyVersions := record.policyVersions.map storedVersions }

/-- A record without versions, or with neither an acceptance nor a memory version. -/
def TaskViewRecord.Kept (record : TaskViewRecord) : Prop :=
  ∀ pv ∈ record.policyVersions, pv.acceptancePolicyVersion = none ∧ pv.memoryPolicyVersion = none

theorem stored_eq_self_iff (record : TaskViewRecord) : record.stored = record ↔ record.Kept := by
  have hversions : ∀ pv : RunPolicyVersions, storedVersions pv = pv ↔
      pv.acceptancePolicyVersion = none ∧ pv.memoryPolicyVersion = none := by
    intro pv
    cases pv
    simp only [storedVersions, RunPolicyVersions.mk.injEq, true_and, and_true]
    exact ⟨fun h => ⟨h.1.symm, h.2.symm⟩, fun h => ⟨h.1.symm, h.2.symm⟩⟩
  cases record with
  | mk _ _ _ _ _ _ _ _ _ _ _ policyVersions _ =>
    cases policyVersions with
    | none => simp [TaskViewRecord.stored, TaskViewRecord.Kept]
    | some pv => simp [TaskViewRecord.stored, TaskViewRecord.Kept, hversions]

/-! ### A row and its record -/

section
variable (floatOf : List Char → String)

theorem asTexts_refs (refs : List String) : asTexts (.list (refs.map .str)) = .ok refs := by
  show (refs.map Value.str).mapM asText = _
  induction refs with
  | nil => rfl
  | cons ref rest ih =>
    rw [List.map_cons, List.mapM_cons, ih]
    rfl

theorem jsonLoads_text {v : Value} (hv : JsonText.Plain v) :
    jsonLoads floatOf (JsonText.text v) = .ok v := by
  rw [jsonLoads, JsonText.loads_text floatOf hv]

theorem jsonLoads_refsText (refs : List String) :
    jsonLoads floatOf (refsText refs) = .ok (.list (refs.map .str)) :=
  jsonLoads_text floatOf (v := .list _) (plain_texts refs)

theorem plain_policyVersionsToDict (pv : Option RunPolicyVersions) :
    JsonText.Plain (policyVersionsToDict pv) := by
  cases pv with
  | none => trivial
  | some pv =>
    refine ⟨?_, plain_optionalText _, plain_optionalText _, plain_optionalText _,
      plain_optionalText _, trivial, trivial⟩
    show ["route_policy_version", "skill_policy_version", "evaluation_policy_version",
      "task_view_policy_version", "pinned_at"].Nodup
    decide

theorem text_ne_empty (pv : Option RunPolicyVersions) :
    JsonText.text (policyVersionsToDict pv) ≠ "" := by
  intro h
  have hlist := congrArg String.toList h
  rw [JsonText.text, String.toList_ofList] at hlist
  cases pv with
  | none => cases hlist
  | some pv => cases hlist

theorem versionsOrNone_stored (pv : Option RunPolicyVersions) :
    versionsOrNone (policyVersionsToDict pv) = .ok (pv.map storedVersions) := by
  cases pv with
  | none => rfl
  | some pv =>
    simp only [versionsOrNone, policyVersionsToDict, policyVersionsOf]
    simp [policyVersionKeys, Value.field, List.lookup_cons, asOptionalText_read]
    rfl

theorem policyVersionsFrom_text (pv : Option RunPolicyVersions) :
    policyVersionsFrom floatOf (some (JsonText.text (policyVersionsToDict pv))) =
      .ok (pv.map storedVersions) := by
  have hne := text_ne_empty pv
  have hloads := jsonLoads_text floatOf (plain_policyVersionsToDict pv)
  generalize JsonText.text (policyVersionsToDict pv) = text at hne hloads
  unfold policyVersionsFrom
  split
  · rename_i h
    cases h
  · rename_i h
    exact absurd (Option.some.inj h) hne
  · rename_i h
    cases h
    rw [hloads]
    exact versionsOrNone_stored pv

/-- **A row is read back as its record**, without the versions its dictionary lacks. -/
theorem rowToRecord_row (record : TaskViewRecord) :
    rowToRecord floatOf record.row = .ok record.stored := by
  simp only [rowToRecord, TaskViewRecord.row, policyVersionsFrom_text, jsonLoads_refsText, asTexts_refs,
    bind, Except.bind]
  rfl

end

/-! ### One call -/

theorem select_write (log : TaskViewLog) (record : TaskViewRecord) (i : String) :
    (log.write record).select i =
      if i = record.taskViewId then some ((log.select i).getD record.row) else log.select i := by
  unfold TaskViewLog.write
  cases hinsert : log.insert record.row with
  | some log' =>
    rw [Option.getD_some, Table.select_insert hinsert]
    obtain ⟨hnone, -⟩ := Table.rows_insert hinsert
    by_cases hi : i = record.taskViewId
    · have hkey : i = record.row.taskViewId := hi
      rw [if_pos hkey, if_pos hi, hkey, hnone]
      rfl
    · have hkey : ¬ i = record.row.taskViewId := hi
      rw [if_neg hkey, if_neg hi]
  | none =>
    rw [Option.getD_none]
    by_cases hi : i = record.taskViewId
    · rw [if_pos hi]
      cases hselect : log.select i with
      | some row => rfl
      | none =>
        have hfree : log.select record.row.taskViewId = none := by
          rw [← hselect, hi]
          rfl
        obtain ⟨log', hlog', -⟩ := Table.insert_of_select hfree
        rw [hlog'] at hinsert
        cases hinsert
    · rw [if_neg hi]

theorem select_bindToDecision (log : TaskViewLog) (i decisionRef j : String) :
    (log.bindToDecision i decisionRef).select j =
      if j = i then (log.select i).map (TaskViewRow.setDecision decisionRef) else log.select j :=
  Table.select_update log i (TaskViewRow.setDecision decisionRef) (fun _ => rfl) j

/-! ### A sequence of calls -/

theorem firstWrite_append (i : String) (calls more : List TaskViewCall) :
    firstWrite i (calls ++ more) =
      match firstWrite i calls with
      | some (record, later) => some (record, later ++ more)
      | none => firstWrite i more := by
  induction calls with
  | nil => rfl
  | cons call rest ih =>
    cases call with
    | write record =>
      rw [List.cons_append, firstWrite, firstWrite]
      split
      · rfl
      · exact ih
    | bindToDecision bound decisionRef =>
      rw [List.cons_append, firstWrite, firstWrite]
      exact ih

theorem firstWrite_eq_none_iff (i : String) (calls : List TaskViewCall) :
    firstWrite i calls = none ↔ ∀ record, .write record ∈ calls → record.taskViewId ≠ i := by
  induction calls with
  | nil => simp [firstWrite]
  | cons call rest ih =>
    cases call with
    | write record =>
      by_cases hi : record.taskViewId = i
      · simp [firstWrite, hi]
      · simp [firstWrite, hi, ih]
    | bindToDecision bound decisionRef => simp [firstWrite, ih]

theorem lastBound_append (i : String) (calls : List TaskViewCall) (call : TaskViewCall) :
    lastBound i (calls ++ [call]) = (call.boundTo i).or (lastBound i calls) := by
  rw [lastBound, lastBound, List.filterMap_append]
  cases hbound : call.boundTo i with
  | none => simp [hbound]
  | some decisionRef => simp [hbound]

theorem expectedView_write (calls : List TaskViewCall) (record : TaskViewRecord) (i : String) :
    expectedView (calls ++ [.write record]) i =
      if i = record.taskViewId then some ((expectedView calls i).getD record) else expectedView calls i := by
  rw [expectedView, expectedView, firstWrite_append]
  cases hfirst : firstWrite i calls with
  | some found =>
    have hbound : lastBound i (found.2 ++ [.write record]) = lastBound i found.2 :=
      lastBound_append i found.2 (.write record)
    simp only [Option.map_some, hbound, Option.getD_some, ite_self]
  | none =>
    simp only [firstWrite, eq_comm (a := record.taskViewId)]
    split <;> rfl

theorem expectedView_bind (calls : List TaskViewCall) (i decisionRef j : String) :
    expectedView (calls ++ [.bindToDecision i decisionRef]) j =
      if j = i then (expectedView calls j).map (fun view => { view with decisionRef := some decisionRef })
      else expectedView calls j := by
  rw [expectedView, expectedView, firstWrite_append]
  cases hfirst : firstWrite j calls with
  | some found =>
    simp only [Option.map_some, lastBound_append, TaskViewCall.boundTo, eq_comm (a := i)]
    by_cases hj : j = i
    · simp only [hj, if_true, Option.some_or]
    · simp only [hj, if_false, Option.none_or]
  | none => simp [firstWrite]

/-- **The table holds the rows of the expected records.** -/
theorem select_viewsAfter (calls : List TaskViewCall) (i : String) :
    (viewsAfter calls).select i = (expectedView calls i).map TaskViewRecord.row := by
  induction calls using List.reverseRecOn with
  | nil => rfl
  | append_singleton calls call ih =>
    have hstep : viewsAfter (calls ++ [call]) = call.apply (viewsAfter calls) :=
      run_append TaskViewCall.apply Table.empty calls [call]
    rw [hstep]
    cases call with
    | write record =>
      rw [TaskViewCall.apply, select_write, expectedView_write, ih]
      split
      · cases expectedView calls i <;> rfl
      · rfl
    | bindToDecision bound decisionRef =>
      rw [TaskViewCall.apply, select_bindToDecision, expectedView_bind]
      by_cases hi : i = bound
      · subst hi
        rw [if_pos rfl, if_pos rfl, ih]
        cases expectedView calls i <;> rfl
      · rw [if_neg hi, if_neg hi, ih]

theorem getById_viewsAfter (floatOf : List Char → String) (calls : List TaskViewCall) (i : String) :
    (viewsAfter calls).getById floatOf i = .ok ((expectedView calls i).map TaskViewRecord.stored) := by
  rw [TaskViewLog.getById, select_viewsAfter]
  cases expectedView calls i with
  | none => rfl
  | some view =>
    simp only [Option.map_some, rowToRecord_row]
    rfl

/-- A bind leaves the other ids alone. -/
theorem getById_bindToDecision (floatOf : List Char → String) (log : TaskViewLog)
    {i j : String} (decisionRef : String) (h : j ≠ i) :
    (log.bindToDecision i decisionRef).getById floatOf j = log.getById floatOf j := by
  rw [TaskViewLog.getById, TaskViewLog.getById, select_bindToDecision, if_neg h]

/-- **When task views come back.** After a sequence of calls every id reads as the first record
written under it, with its last decision, exactly if none of these records has an acceptance or a
memory policy version. -/
theorem task_views_round_trip_iff (floatOf : List Char → String) (calls : List TaskViewCall) :
    RoundTrips floatOf calls ↔
      ∀ i record later, firstWrite i calls = some (record, later) → record.Kept := by
  have hexpected : ∀ i, (viewsAfter calls).getById floatOf i = .ok (expectedView calls i) ↔
      ∀ record later, firstWrite i calls = some (record, later) → record.Kept := by
    intro i
    rw [getById_viewsAfter, expectedView]
    cases firstWrite i calls with
    | none => simp
    | some found =>
      obtain ⟨record, later⟩ := found
      simp only [Option.map_some, Except.ok.injEq, Option.some.injEq, stored_eq_self_iff]
      constructor
      · intro h record' later' heq
        cases heq
        exact h
      · intro h
        exact h record later rfl
  constructor
  · intro h i
    exact (hexpected i).mp (h.reads i)
  · intro h
    refine ⟨?_, fun i => (hexpected i).mpr (h i), ?_⟩
    · intro i
      rw [getById_viewsAfter, ← firstWrite_eq_none_iff, expectedView]
      simp
    · intro i decisionRef j hj
      exact getById_bindToDecision floatOf _ decisionRef hj

/-- A record whose versions pin the acceptance policy. -/
def acceptanceView : TaskViewRecord where
  taskViewId := "view"
  runId := "run"
  selectedModelRole := "evaluation"
  assembledAt := "2026-01-01T00:00:00Z"
  policyVersions := some { acceptancePolicyVersion := some "v1" }

theorem acceptance_version_lost :
    ¬ RoundTrips String.ofList [.write acceptanceView] := by
  intro h
  have hread := h.reads "view"
  rw [getById_viewsAfter] at hread
  have hview := Option.some.inj (Except.ok.inj hread)
  revert hview
  decide

end AgentKernel.Persistence
