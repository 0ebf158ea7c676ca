import AgentKernel.Lib.JsonText
import AgentKernel.Persistence.SqlDedupe

/-! The SQLite cache of projection snapshots.

A projection is stored as the JSON text of its fields, one row a run. Every text the cache
can write is read back as the projection it was written for (`fromSnapshot_toSnapshot`), so
a lookup finds the last projection that was saved for its run (`load_save`). A projection is
refused for its offset alone: an `INTEGER` column holds 64 bits (`save_refused`). -/
namespace AgentKernel.Persistence
open Lib

/-! ### The texts of enumerated values -/

def lifecycleStateTexts : List (RunLifecycleState × String) :=
  [(.created, "created"), (.ready, "ready"), (.dispatching, "dispatching"),
   (.waitingResult, "waiting_result"), (.waitingExternal, "waiting_external"),
   (.recovering, "recovering"), (.completed, "completed"), (.failed, "failed"),
   (.aborted, "aborted")]

def recoveryModeTexts : List (RecoveryMode × String) :=
  [(.staticCompensation, "static_compensation"), (.humanEscalation, "human_escalation"),
   (.abort, "abort"), (.reflectAndRetry, "reflect_and_retry")]

def textIn {α : Type} [DecidableEq α] (texts : List (α × String)) (a : α) : Value :=
  .str ((texts.lookup a).getD "")

/-! ### A projection and its dictionary -/

/-- `asdict` of the policy versions. -/
def policyVersionsDict (pv : RunPolicyVersions) : Payload :=
  [("route_policy_version", optionalText pv.routePolicyVersion),
   ("acceptance_policy_version", optionalText pv.acceptancePolicyVersion),
   ("memory_policy_version", optionalText pv.memoryPolicyVersion),
   ("skill_policy_version", optionalText pv.skillPolicyVersion),
   ("evaluation_policy_version", optionalText pv.evaluationPolicyVersion),
   ("task_view_policy_version", optionalText pv.taskViewPolicyVersion),
   ("pinned_at", .str pv.pinnedAt)]

/-- `_projection_to_dict`. -/
def projectionToDict (projection : RunProjection) : Payload :=
  [("run_id", .str projection.runId),
   ("lifecycle_state", textIn lifecycleStateTexts projection.lifecycleState),
   ("projected_offset", .int projection.projectedOffset),
   ("waiting_external", .bool projection.waitingExternal),
   ("ready_for_dispatch", .bool projection.readyForDispatch),
   ("current_action_id", optionalText projection.currentActionId),
   ("recovery_mode", (projection.recoveryMode.map (textIn recoveryModeTexts)).getD .none),
   ("recovery_reason", optionalText projection.recoveryReason),
   ("active_child_runs", .list (projection.activeChildRuns.map .str)),
   ("policy_versions", (projection.policyVersions.map (fun pv => .dict (policyVersionsDict pv))).getD .none),
   ("task_contract_ref", optionalText projection.taskContractRef)]

/-- A field of another type than the projection has. The source takes any value; the model
has no projection that holds it. -/
def foreignValue : PyError := ⟨.typeError, ""⟩

/-- `d[key]`. -/
def item (d : Payload) (key : String) : Except PyError Value :=
  match d.lookup key with
  | some v => .ok v
  | none => .error ⟨.other "KeyError", Text.quoted key⟩

def asText : Value → Except PyError String
  | .str s => .ok s
  | _ => .error foreignValue

def asOptionalText : Value → Except PyError (Option String)
  | .none => .ok none
  | .str s => .ok (some s)
  | _ => .error foreignValue

def asInt : Value → Except PyError Int
  | .int i => .ok i
  | _ => .error foreignValue

def asBool : Value → Except PyError Bool
  | .bool b => .ok b
  | _ => .error foreignValue

def asTexts : Value → Except PyError (List String)
  | .list items => items.mapM asText
  | _ => .error foreignValue

def asOneOf {α : Type} (texts : List (α × String)) (v : Value) : Except PyError α :=
  match texts.find? (fun e => v.str? = some e.2) with
  | some e => .ok e.1
  | none => .error foreignValue

def asOptionalOneOf {α : Type} (texts : List (α × String)) : Value → Except PyError (Option α)
  | .none => .ok none
  | v => some <$> asOneOf texts v

/-- `RunPolicyVersions(**pv)`. -/
def policyVersionsOf (pv : Payload) : Except PyError RunPolicyVersions :=
  match pv.find? (fun e => e.1 ∉ policyVersionKeys) with
  | some e => .error ⟨.typeError,
      "RunPolicyVersions.__init__() got an unexpected keyword argument " ++ Text.quoted e.1⟩
  | none => do
    return {
      routePolicyVersion := ← asOptionalText (Value.field pv "route_policy_version")
      acceptancePolicyVersion := ← asOptionalText (Value.field pv "acceptance_policy_version")
      memoryPolicyVersion := ← asOptionalText (Value.field pv "memory_policy_version")
      skillPolicyVersion := ← asOptionalText (Value.field pv "skill_policy_version")
      evaluationPolicyVersion := ← asOptionalText (Value.field pv "evaluation_policy_version")
      taskViewPolicyVersion := ← asOptionalText (Value.field pv "task_view_policy_version")
      pinnedAt := ← asText ((pv.lookup "pinned_at").getD (.str "")) }

def asPolicyVersions : Value → Except PyError (Option RunPolicyVersions)
  | .none => .ok none
  | .dict pv => some <$> policyVersionsOf pv
  | _ => .error ⟨.typeError, "argument after ** must be a mapping"⟩

/-- `_dict_to_projection`. -/
def dictToProjection (d : Payload) : Except PyError RunProjection := do
  let policyVersions ← asPolicyVersions (Value.field d "policy_versions")
  return {
    runId := ← asText (← item d "run_id")
    lifecycleState := ← asOneOf lifecycleStateTexts (← item d "lifecycle_state")
    projectedOffset := ← asInt (← item d "projected_offset")
    waitingExternal := ← asBool (← item d "waiting_external")
    readyForDispatch := ← asBool (← item d "ready_for_dispatch")
    currentActionId := ← asOptionalText (Value.field d "current_action_id")
    recoveryMode := ← asOptionalOneOf recoveryModeTexts (Value.field d "recovery_mode")
    recoveryReason := ← asOptionalText (Value.field d "recovery_reason")
    activeChildRuns := ← asTexts ((d.lookup "active_child_runs").getD (.list []))
    policyVersions := policyVersions
    taskContractRef := ← asOptionalText (Value.field d "task_contract_ref") }

/-! ### The round trip -/

theorem asOptionalText_read (s : Option String) : asOptionalText (optionalText s) = .ok s := by
  cases s <;> rfl

theorem asOptionalText_optionalText (s : Option String) :
    asOptionalText (optionalText s).sortKeys = .ok s := by
  cases s with
  | none => rfl
  | some s => rfl

theorem asOneOf_lifecycle (s : RunLifecycleState) :
    asOneOf lifecycleStateTexts (textIn lifecycleStateTexts s).sortKeys = .ok s := by
  cases s <;> rfl

theorem asOptionalOneOf_recovery (m : Option RecoveryMode) :
    asOptionalOneOf recoveryModeTexts ((m.map (textIn recoveryModeTexts)).getD .none).sortKeys =
      .ok m := by
  cases m with
  | none => rfl
  | some m => cases m <;> rfl

theorem asTexts_map (texts : List String) :
    asTexts (Value.list (texts.map .str)).sortKeys = .ok texts := by
  show (Value.sortKeysItems (texts.map .str)).mapM asText = _
  induction texts with
  | nil => rfl
  | cons s rest ih =>
    rw [List.map_cons, Value.sortKeysItems, List.mapM_cons, ih]
    rfl

theorem keys_projectionToDict (p : RunProjection) :
    ((projectionToDict p).map Prod.fst).Nodup := by
  show ["run_id", "lifecycle_state", "projected_offset", "waiting_external", "ready_for_dispatch",
    "current_action_id", "recovery_mode", "recovery_reason", "active_child_runs", "policy_versions",
    "task_contract_ref"].Nodup
  decide

theorem keys_policyVersionsDict (pv : RunPolicyVersions) :
    ((policyVersionsDict pv).map Prod.fst).Nodup := by
  show policyVersionKeys.Nodup
  decide

theorem policyVersionsOf_sortPayload (pv : RunPolicyVersions) :
    policyVersionsOf (Value.sortPayload (policyVersionsDict pv)) = .ok pv := by
  have hkeys := keys_policyVersionsDict pv
  have hknown : (Value.sortPayload (policyVersionsDict pv)).find?
      (fun e => e.1 ∉ policyVersionKeys) = none := by
    refine List.find?_eq_none.mpr (fun e he => ?_)
    have hmem : e.1 ∈ (Value.sortPayload (policyVersionsDict pv)).map Prod.fst :=
      List.mem_map_of_mem he
    have hperm := (JsonText.sortedEntries_perm (Value.sortKeysEntries (policyVersionsDict pv))).map Prod.fst
    rw [JsonText.keys_sortKeysEntries] at hperm
    have hkey : e.1 ∈ policyVersionKeys := hperm.mem_iff.mp hmem
    simpa using hkey
  unfold policyVersionsOf
  rw [hknown]
  simp only [JsonText.field_sortPayload hkeys, JsonText.lookup_sortPayload hkeys]
  simp [policyVersionsDict, Value.field, List.lookup_cons, asOptionalText_optionalText]
  rfl

/-- **A projection comes back** from its dictionary, whatever the order of its fields. -/
theorem dictToProjection_sortPayload (p : RunProjection) :
    dictToProjection (Value.sortPayload (projectionToDict p)) = .ok p := by
  have hkeys := keys_projectionToDict p
  have hversions : asPolicyVersions
      ((p.policyVersions.map (fun pv => Value.dict (policyVersionsDict pv))).getD .none).sortKeys =
      .ok p.policyVersions := by
    cases p.policyVersions with
    | none => rfl
    | some pv =>
      show some <$> policyVersionsOf (Value.sortPayload (policyVersionsDict pv)) = _
      rw [policyVersionsOf_sortPayload]
      rfl
  unfold dictToProjection item
  simp only [JsonText.field_sortPayload hkeys, JsonText.lookup_sortPayload hkeys]
  simp [projectionToDict, Value.field, List.lookup_cons, hversions, asOptionalText_optionalText,
    asOneOf_lifecycle, asOptionalOneOf_recovery, asTexts_map, bind, Except.bind]
  rfl

/-! ### A projection and its text -/

/-- `json.dumps(_projection_to_dict(projection), sort_keys=True)`. -/
def toSnapshot (projection : RunProjection) : Except PyError String :=
  match JsonText.dumps (.dict (projectionToDict projection)) with
  | some text => .ok text
  | none => .error tooManyDigits

/-- `_dict_to_projection(json.loads(text))`. -/
def fromSnapshot (floatOf : List Char → String) (text : String) : Except PyError RunProjection :=
  match JsonText.loads floatOf text with
  | some (.dict d) => dictToProjection d
  | some _ => .error ⟨.other "AttributeError", ""⟩
  | none => .error ⟨.other "JSONDecodeError", ""⟩

/-- The offset has a text. -/
def OffsetHasText (p : RunProjection) : Prop :=
  (JsonText.digits p.projectedOffset).length ≤ JsonText.intMaxStrDigits

instance (p : RunProjection) : Decidable (OffsetHasText p) := inferInstanceAs (Decidable (_ ≤ _))

theorem not_offsetHasText {p : RunProjection} {n : Nat}
    (hn : JsonText.intMaxStrDigits < (Nat.toDigits 10 n).length) (h : p.projectedOffset = n) :
    ¬ OffsetHasText p := by
  intro hshort
  unfold OffsetHasText JsonText.digits at hshort
  rw [h, Int.natAbs_natCast] at hshort
  exact absurd hn (Nat.not_lt.mpr hshort)

theorem plain_optionalText (s : Option String) : JsonText.Plain (optionalText s) := by
  cases s with
  | none => trivial
  | some s => trivial

theorem plain_texts (texts : List String) : JsonText.PlainItems (texts.map .str) := by
  induction texts with
  | nil => trivial
  | cons s rest ih => exact ⟨trivial, ih⟩

theorem plain_projectionToDict {p : RunProjection} (h : OffsetHasText p) :
    JsonText.Plain (.dict (projectionToDict p)) := by
  have hrecovery : JsonText.Plain ((p.recoveryMode.map (textIn recoveryModeTexts)).getD .none) := by
    cases p.recoveryMode with
    | none => trivial
    | some m => trivial
  have hversions : JsonText.Plain
      ((p.policyVersions.map (fun pv => .dict (policyVersionsDict pv))).getD .none) := by
    cases p.policyVersions with
    | none => trivial
    | some pv =>
      exact ⟨keys_policyVersionsDict pv, plain_optionalText _, plain_optionalText _,
        plain_optionalText _, plain_optionalText _, plain_optionalText _, plain_optionalText _,
        trivial, trivial⟩
  exact ⟨keys_projectionToDict p, trivial, trivial, h, trivial, trivial, plain_optionalText _,
    hrecovery, plain_optionalText _, plain_texts _, hversions, plain_optionalText _, trivial⟩

/-- A snapshot is written unless the offset has too many digits. -/
theorem toSnapshot_error {p : RunProjection} (h : ¬ OffsetHasText p) :
    toSnapshot p = .error tooManyDigits := by
  have hlong : JsonText.withinDigits (.dict (projectionToDict p)) = false := by
    simp [projectionToDict, JsonText.withinDigits, JsonText.withinDigitsEntries,
      show ¬ (JsonText.digits p.projectedOffset).length ≤ JsonText.intMaxStrDigits from h]
  rw [toSnapshot, JsonText.dumps, hlong]
  rfl

/-- **Every snapshot that is written is read back** as the projection it was written for. -/
theorem fromSnapshot_toSnapshot (floatOf : List Char → String) {p : RunProjection}
    (h : OffsetHasText p) : ∃ text, toSnapshot p = .ok text ∧ fromSnapshot floatOf text = .ok p := by
  obtain ⟨text, hdumps, hloads⟩ := JsonText.loads_dumps floatOf (plain_projectionToDict h)
  refine ⟨text, ?_, ?_⟩
  · rw [toSnapshot, hdumps]
  · rw [fromSnapshot, hloads]
    exact dictToProjection_sortPayload p

theorem snapshot_comes_back_iff (floatOf : List Char → String) (p : RunProjection) :
    (toSnapshot p >>= fromSnapshot floatOf) = .ok p ↔ OffsetHasText p := by
  constructor
  · intro hback
    by_contra hlong
    rw [toSnapshot_error hlong] at hback
    cases hback
  · intro h
    obtain ⟨text, hwrite, hread⟩ := fromSnapshot_toSnapshot floatOf h
    rw [hwrite]
    exact hread

/-! ### The cache -/

/-- A row of `projection_snapshots`; the time of its last update is never read. -/
structure SnapshotRow where
  projectedOffset : Int
  snapshotJson : String

/-- The rows under their run identifiers. -/
abbrev ProjectionSnapshotCache := Dict String SnapshotRow

namespace ProjectionSnapshotCache

/-- `save`: the row of the run is inserted or replaced. -/
def save (cache : ProjectionSnapshotCache) (projection : RunProjection) :
    Except PyError ProjectionSnapshotCache := do
  let snapshotJson ← toSnapshot projection
  if FitsInt64 projection.projectedOffset then
    .ok (cache.set projection.runId ⟨projection.projectedOffset, snapshotJson⟩)
  else .error TableIn.overflow

def load (floatOf : List Char → String) (cache : ProjectionSnapshotCache) (runId : String) :
    Except PyError (Option RunProjection) :=
  match cache.get? runId with
  | none => .ok none
  | some row => some <$> fromSnapshot floatOf row.snapshotJson

/-- What `save` raises. -/
def refusal (projection : RunProjection) : Option PyError :=
  if FitsInt64 projection.projectedOffset then none
  else if OffsetHasText projection then some TableIn.overflow
  else some tooManyDigits

end ProjectionSnapshotCache

theorem offsetHasText_of_fits {p : RunProjection} (h : FitsInt64 p.projectedOffset) :
    OffsetHasText p := by
  obtain ⟨hlow, hhigh⟩ := h
  have hshort : (Nat.toDigits 10 p.projectedOffset.natAbs).length ≤ 19 :=
    (Nat.length_toDigits_le_iff (by decide) (by decide)).mpr (by omega)
  exact Nat.le_trans hshort (by decide)

/-- **A projection is refused** for its offset alone. -/
theorem save_refused (cache : ProjectionSnapshotCache) {p : RunProjection} {e : PyError}
    (h : ProjectionSnapshotCache.refusal p = some e) : cache.save p = .error e := by
  unfold ProjectionSnapshotCache.refusal at h
  split at h
  · cases h
  rename_i hfits
  split at h
  · rename_i htext
    cases h
    obtain ⟨text, hwrite, _⟩ := fromSnapshot_toSnapshot (fun _ => "") htext
    unfold ProjectionSnapshotCache.save
    rw [hwrite]
    exact if_neg hfits
  · rename_i htext
    cases h
    unfold ProjectionSnapshotCache.save
    rw [toSnapshot_error htext]
    rfl

/-- **The last projection saved for a run is the one that is loaded.** -/
theorem load_save (floatOf : List Char → String) (cache : ProjectionSnapshotCache) {p : RunProjection}
    (h : ProjectionSnapshotCache.refusal p = none) :
    ∃ cache', cache.save p = .ok cache' ∧ ∀ runId, ProjectionSnapshotCache.load floatOf cache' runId =
      if runId = p.runId then .ok (some p) else ProjectionSnapshotCache.load floatOf cache runId := by
  have hfits : FitsInt64 p.projectedOffset := by
    by_contra hnot
    unfold ProjectionSnapshotCache.refusal at h
    rw [if_neg hnot] at h
    split at h <;> cases h
  obtain ⟨text, hwrite, hread⟩ := fromSnapshot_toSnapshot floatOf (offsetHasText_of_fits hfits)
  refine ⟨cache.set p.runId ⟨p.projectedOffset, text⟩, ?_, fun runId => ?_⟩
  · unfold ProjectionSnapshotCache.save
    rw [hwrite]
    exact if_pos hfits
  · unfold ProjectionSnapshotCache.load
    rw [Dict.get?_set]
    by_cases hrun : runId = p.runId
    · rw [if_pos hrun, if_pos hrun]
      show some <$> fromSnapshot floatOf text = _
      rw [hread]
      rfl
    · rw [if_neg hrun, if_neg hrun]

end AgentKernel.Persistence
