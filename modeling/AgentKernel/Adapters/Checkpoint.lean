import AgentKernel.Lib.Decimal
import AgentKernel.Lib.Dict
import AgentKernel.Lib.Run
import AgentKernel.Contracts

/-! Checkpoints for the platform.

A snapshot id joins a free-form run id and an offset with a colon. It is read from its last colon,
and no offset writes one, so it reads back as what it was made of (`snapshot_id_round_trip`), and a
request with another run's id is refused. -/
namespace AgentKernel.Adapters
open Lib

structure AgentCoreCheckpointView where
  runId : String
  snapshotId : Option String
  projectedOffset : Int
  lifecycleState : RunLifecycleState
  deriving DecidableEq, Repr

structure AgentCoreResumeInput where
  runId : String
  snapshotId : Option String := none
  deriving DecidableEq, Repr

structure KernelResumeRequest where
  runId : String
  snapshotId : Option String := none
  snapshotOffset : Option Int := none
  deriving DecidableEq, Repr

/-- The last projection of every run, under its run id. -/
structure AgentCoreCheckpointAdapter where
  projectionByRun : Dict String RunProjection
  keyed : projectionByRun.Keyed RunProjection.runId

def valueError (message : String) : PyError := ⟨.valueError, message⟩

namespace AgentCoreCheckpointAdapter

/-- `__init__`. -/
def new : AgentCoreCheckpointAdapter := ⟨.empty, Dict.keyed_empty _⟩

def bindProjection (A : AgentCoreCheckpointAdapter) (projection : RunProjection) :
    AgentCoreCheckpointAdapter where
  projectionByRun := A.projectionByRun.set projection.runId projection
  keyed := A.keyed.set rfl

def exportCheckpointView (A : AgentCoreCheckpointAdapter) (runId : String) :
    Except PyError AgentCoreCheckpointView :=
  match A.projectionByRun.get? runId with
  | none =>
    .ok { runId := runId, snapshotId := none, projectedOffset := 0, lifecycleState := .created }
  | some projection => do
    let offset ← (Decimal.str projection.projectedOffset).mapError valueError
    return { runId := runId
             snapshotId := some ("snapshot:" ++ runId ++ ":" ++ offset)
             projectedOffset := projection.projectedOffset
             lifecycleState := projection.lifecycleState }

end AgentCoreCheckpointAdapter

def invalidFormat : PyError :=
  valueError "Invalid snapshot_id format. Expected 'snapshot:<run_id>:<offset>'."

/-- The run id may hold colons: the last one is the separator. -/
def parseSnapshotId (snapshotId : String) : Except PyError (String × Int) :=
  if ¬ Text.startsWith snapshotId "snapshot:" then .error invalidFormat
  else
    match Text.rpartition ':' (Text.dropFront snapshotId "snapshot:") with
    | (runId, separator, offsetValue) =>
      if separator ≠ ":" then .error invalidFormat
      else if runId = "" then
        .error (valueError "Invalid snapshot_id: run_id must be non-empty.")
      else if ¬ Decimal.isDigit offsetValue then
        .error (valueError "Invalid snapshot_id: offset must be a non-negative integer.")
      else do
        let offset ← (Decimal.int offsetValue).mapError valueError
        return (runId, offset)

def importResumeRequest (input : AgentCoreResumeInput) : Except PyError KernelResumeRequest :=
  match input.snapshotId with
  | none => .ok { runId := input.runId, snapshotId := none, snapshotOffset := none }
  | some snapshotId => do
    let parsed ← parseSnapshotId snapshotId
    if parsed.1 ≠ input.runId then
      throw (valueError "snapshot_id run_id does not match resume request run_id.")
    return { runId := input.runId, snapshotId := some snapshotId, snapshotOffset := some parsed.2 }

/-! ### Reading an id back -/

section
variable {A : AgentCoreCheckpointAdapter} {runId snapshotId : String} {offset : Int}
  {projection : RunProjection} {view : AgentCoreCheckpointView}

theorem parseSnapshotId_written (hrun : runId ≠ "") (hoffset : 0 ≤ offset)
    (hdigits : (JsonText.digits offset).length ≤ JsonText.intMaxStrDigits) :
    parseSnapshotId ("snapshot:" ++ runId ++ ":" ++ toString offset) = .ok (runId, offset) := by
  have hbody : "snapshot:" ++ runId ++ ":" ++ toString offset =
      "snapshot:" ++ (runId ++ String.singleton ':' ++ toString offset) := by
    simp only [String.append_assoc]
    rfl
  have hstarts := Text.startsWith_iff.mpr ⟨_, hbody⟩
  have hcolon : String.singleton ':' = ":" := rfl
  rw [parseSnapshotId, if_neg (not_not_intro hstarts), hbody, Text.dropFront_append,
    Text.rpartition_joined (Text.intText_no_colon offset)]
  simp only [hcolon, ne_eq, not_true_eq_false, if_false, hrun, Decimal.isDigit_natural hoffset,
    Decimal.int_natural hoffset hdigits]
  rfl

/-- **What is accepted** has the format, with the run id that is read from it. -/
theorem parseSnapshotId_ok (h : parseSnapshotId snapshotId = .ok (runId, offset)) :
    runId ≠ "" ∧ ∃ offsetValue, snapshotId = "snapshot:" ++ runId ++ ":" ++ offsetValue ∧
      Decimal.isDigit offsetValue = true ∧ Decimal.int offsetValue = .ok offset := by
  rw [parseSnapshotId] at h
  split at h
  · cases h
  · rename_i hstarts
    obtain ⟨body, rfl⟩ := Text.startsWith_iff.mp (not_not.mp hstarts)
    rw [Text.dropFront_append] at h
    cases hparts : Text.rpartition ':' body with
    | mk head parts =>
      obtain ⟨separator, offsetValue⟩ := parts
      rw [hparts] at h
      simp only at h
      split at h
      · cases h
      · rename_i hseparator
        split at h
        · cases h
        · rename_i hrun
          split at h
          · cases h
          · rename_i hdigit
            cases hint : Decimal.int offsetValue with
            | error message =>
              rw [hint] at h
              cases h
            | ok n =>
              rw [hint] at h
              cases h
              rw [not_not.mp hseparator] at hparts
              have hbody : body = runId ++ String.singleton ':' ++ offsetValue :=
                Text.rpartition_append hparts
              refine ⟨hrun, offsetValue, ?_, not_not.mp hdigit, hint⟩
              rw [hbody]
              simp only [String.append_assoc]
              rfl

theorem importResumeRequest_parsed (h : parseSnapshotId snapshotId = .ok (runId, offset)) (other : String) :
    importResumeRequest ⟨other, some snapshotId⟩ =
      if runId = other then .ok ⟨other, some snapshotId, some offset⟩
      else .error (valueError "snapshot_id run_id does not match resume request run_id.") := by
  simp only [importResumeRequest, h, bind, Except.bind]
  by_cases hrun : runId = other
  · rw [if_neg (not_not_intro hrun), if_pos hrun]
    rfl
  · rw [if_pos hrun, if_neg hrun]
    rfl

/-- **A request that is let through** with a checkpoint has a checkpoint of its own run. -/
theorem importResumeRequest_ok {request : KernelResumeRequest}
    (h : importResumeRequest ⟨runId, some snapshotId⟩ = .ok request) :
    ∃ n, request = ⟨runId, some snapshotId, some n⟩ ∧ parseSnapshotId snapshotId = .ok (runId, n) := by
  cases hparse : parseSnapshotId snapshotId with
  | error e =>
    simp only [importResumeRequest, hparse] at h
    cases h
  | ok parsed =>
    obtain ⟨run, n⟩ := parsed
    rw [importResumeRequest_parsed hparse] at h
    split at h
    · rename_i hrun
      subst hrun
      cases h
      exact ⟨n, rfl, rfl⟩
    · cases h

/-! ### Exported checkpoints -/

theorem exportCheckpointView_bound (h : A.projectionByRun.get? runId = some projection)
    (hdigits : (JsonText.digits projection.projectedOffset).length ≤ JsonText.intMaxStrDigits) :
    A.exportCheckpointView runId =
      .ok { runId := runId
            snapshotId := some ("snapshot:" ++ runId ++ ":" ++ toString projection.projectedOffset)
            projectedOffset := projection.projectedOffset
            lifecycleState := projection.lifecycleState } := by
  simp only [AgentCoreCheckpointAdapter.exportCheckpointView, h, Decimal.str_short hdigits]
  rfl

/-- Whatever is exported with an id has the id of its run and offset. -/
theorem snapshotId_exported (h : A.exportCheckpointView runId = .ok view)
    (hid : view.snapshotId = some snapshotId) :
    snapshotId = "snapshot:" ++ runId ++ ":" ++ toString view.projectedOffset := by
  rw [AgentCoreCheckpointAdapter.exportCheckpointView] at h
  cases hget : A.projectionByRun.get? runId with
  | none =>
    rw [hget] at h
    cases h
    cases hid
  | some projection =>
    simp only [hget] at h
    cases htext : Decimal.str projection.projectedOffset with
    | error message =>
      rw [htext] at h
      cases h
    | ok text =>
      rw [htext] at h
      cases h
      cases hid
      rw [Decimal.str_ok htext]

/-- Ids of different runs or offsets differ. -/
theorem snapshotId_inj {runId' : String} {offset' : Int}
    (h : "snapshot:" ++ runId ++ ":" ++ toString offset = "snapshot:" ++ runId' ++ ":" ++ toString offset') :
    runId = runId' ∧ offset = offset' := by
  obtain ⟨hrun, hoffset⟩ :=
    (Text.joined_eq_iff (Text.intText_no_colon offset) (Text.intText_no_colon offset')).mp h
  exact ⟨(String.append_right_inj _).mp hrun, Text.intText_injective hoffset⟩

/-- **Checkpoint ids round trip**, for their own run only, and are told apart. -/
theorem snapshot_id_round_trip (hbound : A.projectionByRun.get? runId = some projection)
    (hrun : runId ≠ "") (hoffset : 0 ≤ projection.projectedOffset)
    (hdigits : (JsonText.digits projection.projectedOffset).length ≤ JsonText.intMaxStrDigits) :
    ∃ view snapshotId, A.exportCheckpointView runId = .ok view ∧ view.snapshotId = some snapshotId ∧
      parseSnapshotId snapshotId = .ok (runId, projection.projectedOffset) ∧
      importResumeRequest ⟨runId, some snapshotId⟩ =
        .ok ⟨runId, some snapshotId, some projection.projectedOffset⟩ ∧
      (∀ other, other ≠ runId → ∃ message,
        importResumeRequest ⟨other, some snapshotId⟩ = .error ⟨.valueError, message⟩) ∧
      ∀ (A' : AgentCoreCheckpointAdapter) (runId' : String) (view' : AgentCoreCheckpointView),
        A'.exportCheckpointView runId' = .ok view' → view'.snapshotId = some snapshotId →
          runId' = runId ∧ view'.projectedOffset = projection.projectedOffset := by
  have hparse := parseSnapshotId_written hrun hoffset hdigits
  refine ⟨_, _, exportCheckpointView_bound hbound hdigits, rfl, hparse, ?_, ?_, ?_⟩
  · rw [importResumeRequest_parsed hparse, if_pos rfl]
  · intro other hother
    rw [importResumeRequest_parsed hparse, if_neg hother.symm]
    exact ⟨_, rfl⟩
  · intro A' runId' view' hexport hid
    exact snapshotId_inj (snapshotId_exported hexport hid).symm

end

def lineageProjection : RunProjection where
  runId := "session-1:research:2"
  lifecycleState := .waitingExternal
  projectedOffset := 21
  waitingExternal := true
  readyForDispatch := false

/-- A run id with colons and digits of its own. -/
theorem lineage_snapshot_id_round_trip :
    ∃ view snapshotId,
      (AgentCoreCheckpointAdapter.new.bindProjection lineageProjection).exportCheckpointView
        "session-1:research:2" = .ok view ∧ view.snapshotId = some snapshotId ∧
      parseSnapshotId snapshotId = .ok ("session-1:research:2", 21) ∧
      ∃ message, importResumeRequest ⟨"session-1:research", some snapshotId⟩ =
        .error ⟨.valueError, message⟩ := by
  have hbound : (AgentCoreCheckpointAdapter.new.bindProjection lineageProjection).projectionByRun.get?
      "session-1:research:2" = some lineageProjection := by decide
  obtain ⟨view, snapshotId, hexport, hid, hparse, -, hother, -⟩ :=
    snapshot_id_round_trip hbound (by decide) (by decide) (by decide)
  exact ⟨view, snapshotId, hexport, hid, hparse, hother _ (by decide)⟩

/-! ### Sequences of bindings -/

/-- What is bound for a run is the last projection of it. -/
theorem get?_run_bindProjection (projections : List RunProjection) (A : AgentCoreCheckpointAdapter)
    (runId : String) :
    (run AgentCoreCheckpointAdapter.bindProjection A projections).projectionByRun.get? runId =
      (projections.reverse.find? (fun p => p.runId = runId)).or (A.projectionByRun.get? runId) := by
  induction projections generalizing A with
  | nil => rfl
  | cons projection rest ih =>
    rw [run, ih, AgentCoreCheckpointAdapter.bindProjection, Dict.get?_set, List.reverse_cons,
      List.find?_append, Option.or_assoc]
    congr 1
    by_cases hrun : runId = projection.runId
    · simp [hrun]
    · have hrun' : ¬ projection.runId = runId := fun h => hrun h.symm
      simp [hrun, hrun']

/-- **After any bindings** a run is resumed at the offset of its last projection. -/
theorem resume_after_bindings {projections : List RunProjection} {runId : String}
    {projection : RunProjection}
    (hlast : projections.reverse.find? (fun p => p.runId = runId) = some projection) (hrun : runId ≠ "")
    (hoffset : 0 ≤ projection.projectedOffset)
    (hdigits : (JsonText.digits projection.projectedOffset).length ≤ JsonText.intMaxStrDigits) :
    ∃ view snapshotId,
      (run AgentCoreCheckpointAdapter.bindProjection .new projections).exportCheckpointView runId =
        .ok view ∧ view.snapshotId = some snapshotId ∧
      importResumeRequest ⟨runId, some snapshotId⟩ =
        .ok ⟨runId, some snapshotId, some projection.projectedOffset⟩ := by
  have hbound := get?_run_bindProjection projections .new runId
  rw [hlast, Option.some_or] at hbound
  refine ⟨_, _, exportCheckpointView_bound hbound hdigits, rfl, ?_⟩
  rw [importResumeRequest_parsed (parseSnapshotId_written hrun hoffset hdigits), if_pos rfl]

end AgentKernel.Adapters
