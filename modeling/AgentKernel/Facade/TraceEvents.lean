import AgentKernel.Lib.Replica
import AgentKernel.Projection.Fold
import AgentKernel.Facade.Approvals

/-! Operations on the trace of a run, and the events that record them.

An operation changes the facade's record of its run and appends an event to the log; a
facade that queries the run reads the events it has not read yet and adds them to its
record. Reading gives back what was written (`read_traceCommit`). To one stage or branch
an operation is a change as `Lib.Replica` has them: performing it leaves the state of the
change (`perform_stage`, `perform_branch`), and reading it absorbs the change
(`apply_stage`, `apply_branch`). -/
namespace AgentKernel.Facade
open Lib Replica

/-! ### Events -/

/-- What an operation does to the trace of its run. -/
inductive TraceEvent where
  | stageOpened (stageId : String) (state : TraceStageState) (enteredAt : String) (branchId : Option String)
  | stageStateChanged (stageId : String) (newState : TraceStageState)
      (exitedAt failureCode : Option String)
  | branchOpened (branchId stageId : String) (state : TraceBranchState) (openedAt : String)
      (parentBranchId proposedBy : Option String)
  | branchStateChanged (branchId : String) (newState : TraceBranchState) (failureCode : Option String)
  | humanGateOpened (gateRef : String) (gateType : HumanGateType)
  | humanGateResolved (gateRef : String) (approved : Bool)
  | escalationResolved (resolutionNotes : Option String)
  deriving DecidableEq, Repr

namespace TraceEvent

def eventType : TraceEvent → String
  | stageOpened .. => "trace.stage_opened"
  | stageStateChanged .. => "trace.stage_state_changed"
  | branchOpened .. => "trace.branch_opened"
  | branchStateChanged .. => "trace.branch_state_changed"
  | humanGateOpened .. => "trace.human_gate_opened"
  | humanGateResolved .. => "trace.human_gate_resolved"
  | escalationResolved _ => "trace.escalation_resolved"

def payload : TraceEvent → Payload
  | stageOpened stageId state enteredAt branchId =>
    [("stage_id", .str stageId), ("state", .str state.text), ("entered_at", .str enteredAt),
     ("branch_id", optionalText branchId)]
  | stageStateChanged stageId newState exitedAt failureCode =>
    [("stage_id", .str stageId), ("new_state", .str newState.text),
     ("exited_at", optionalText exitedAt), ("failure_code", optionalText failureCode)]
  | branchOpened branchId stageId state openedAt parentBranchId proposedBy =>
    [("branch_id", .str branchId), ("stage_id", .str stageId), ("state", .str state.text),
     ("opened_at", .str openedAt), ("parent_branch_id", optionalText parentBranchId),
     ("proposed_by", optionalText proposedBy)]
  | branchStateChanged branchId newState failureCode =>
    [("branch_id", .str branchId), ("new_state", .str newState.text),
     ("failure_code", optionalText failureCode)]
  | humanGateOpened gateRef gateType => [("gate_ref", .str gateRef), ("gate_type", .str gateType.text)]
  | humanGateResolved gateRef approved => [("gate_ref", .str gateRef), ("approved", .bool approved)]
  | escalationResolved resolutionNotes => [("resolution_notes", optionalText resolutionNotes)]

end TraceEvent

/-- What the clock and the generator of ids give an event. -/
structure Stamp where
  now : String := ""
  eventId : String := ""
  commitId : String := ""

/-- `_append_trace_event`: the commit it appends. -/
def traceCommit (runId : String) (e : TraceEvent) (stamp : Stamp) : ActionCommit :=
  { runId := runId
    commitId := stamp.commitId
    createdAt := stamp.now
    causedBy := some ("kernel_facade." ++ e.eventType)
    events :=
      [{ runId := runId
         eventId := stamp.eventId
         commitOffset := 0
         eventType := e.eventType
         eventClass := .derived
         eventAuthority := .derivedReplayable
         orderingKey := stamp.now
         wakePolicy := .projectionOnly
         createdAt := stamp.now
         payloadJson := some e.payload }] }

/-! ### Reading -/

def TraceStageState.ofText? (s : String) : Option TraceStageState :=
  [TraceStageState.pending, .active, .blocked, .completed, .failed].find? (fun state => state.text = s)

def TraceBranchState.ofText? (s : String) : Option TraceBranchState :=
  [TraceBranchState.proposed, .active, .waiting, .pruned, .succeeded, .failed].find?
    (fun state => state.text = s)

def HumanGateType.ofText? (s : String) : Option HumanGateType :=
  [HumanGateType.contractCorrection, .routeDirection, .artifactReview, .finalApproval].find?
    (fun gateType => gateType.text = s)

@[simp] theorem TraceStageState.ofText?_text (state : TraceStageState) :
    TraceStageState.ofText? state.text = some state := by
  cases state <;> decide

@[simp] theorem TraceBranchState.ofText?_text (state : TraceBranchState) :
    TraceBranchState.ofText? state.text = some state := by
  cases state <;> decide

@[simp] theorem HumanGateType.ofText?_text (gateType : HumanGateType) :
    HumanGateType.ofText? gateType.text = some gateType := by
  cases gateType <;> decide

def textAt (p : Payload) (key default : String) : String := ((p.lookup key).bind Value.str?).getD default

def optionalAt (p : Payload) (key : String) : Option String := (Value.field p key).str?

@[simp] theorem str?_str (s : String) : (Value.str s).str? = some s := rfl

/-- A trace event of the log, read. The facades write every field as a text, so a value of
another type is read as if it were missing. -/
def readTraceEvent (event : RuntimeEvent) : Option TraceEvent :=
  let p := event.payloadJson.getD []
  if event.eventType = "trace.branch_opened" then some
    (.branchOpened (textAt p "branch_id" "") (textAt p "stage_id" "")
      ((TraceBranchState.ofText? (textAt p "state" "active")).getD .active)
      (textAt p "opened_at" event.createdAt) (optionalAt p "parent_branch_id")
      (optionalAt p "proposed_by"))
  else if event.eventType = "trace.branch_state_changed" then some
    (.branchStateChanged (textAt p "branch_id" "")
      ((TraceBranchState.ofText? (textAt p "new_state" "")).getD .active) (optionalAt p "failure_code"))
  else if event.eventType = "trace.stage_opened" then some
    (.stageOpened (textAt p "stage_id" "")
      ((TraceStageState.ofText? (textAt p "state" "active")).getD .active)
      (textAt p "entered_at" event.createdAt) (optionalAt p "branch_id"))
  else if event.eventType = "trace.stage_state_changed" then some
    (.stageStateChanged (textAt p "stage_id" "")
      ((TraceStageState.ofText? (textAt p "new_state" "")).getD .active) (optionalAt p "exited_at")
      (optionalAt p "failure_code"))
  else if event.eventType = "trace.human_gate_opened" then some
    (.humanGateOpened (textAt p "gate_ref" "")
      ((HumanGateType.ofText? (textAt p "gate_type" "")).getD .finalApproval))
  else if event.eventType = "trace.human_gate_resolved" then some
    (.humanGateResolved (textAt p "gate_ref" "")
      (match Value.field p "approved" with
       | .bool b => b
       | _ => false))
  else if event.eventType = "trace.escalation_resolved" then some
    (.escalationResolved (optionalAt p "resolution_notes"))
  else none

/-- **What is written is read back**, under whatever offset the log gives it. -/
theorem read_traceCommit (runId : String) (e : TraceEvent) (stamp : Stamp) (offset : Int) :
    (traceCommit runId e stamp).events.map
      (fun event => readTraceEvent { event with commitOffset := offset }) = [some e] := by
  cases e <;>
    simp [traceCommit, readTraceEvent, TraceEvent.eventType, TraceEvent.payload, textAt, optionalAt,
      Value.field, List.lookup_cons]

/-- Only trace events are read. -/
theorem readTraceEvent_none {event : RuntimeEvent}
    (h : Text.startsWith event.eventType "trace." = false) :
    readTraceEvent event = none := by
  have hne : ∀ t ∈ ["trace.branch_opened", "trace.branch_state_changed", "trace.stage_opened",
      "trace.stage_state_changed", "trace.human_gate_opened", "trace.human_gate_resolved",
      "trace.escalation_resolved"], event.eventType ≠ t := by
    intro t ht heq
    have htrace : ∀ t ∈ ["trace.branch_opened", "trace.branch_state_changed", "trace.stage_opened",
        "trace.stage_state_changed", "trace.human_gate_opened", "trace.human_gate_resolved",
        "trace.escalation_resolved"], Text.startsWith t "trace." = true := by decide
    rw [heq, htrace t ht] at h
    cases h
  simp only [List.mem_cons, List.not_mem_nil, or_false, forall_eq_or_imp, forall_eq] at hne
  obtain ⟨h1, h2, h3, h4, h5, h6, h7⟩ := hne
  simp only [readTraceEvent, if_neg h1, if_neg h2, if_neg h3, if_neg h4, if_neg h5, if_neg h6, if_neg h7]

/-! ### The record of a run -/

namespace RunRecord

/-- A trace event is added to the record. What is there is not opened again. -/
def apply (record : RunRecord) : TraceEvent → RunRecord
  | .stageOpened stageId state enteredAt branchId =>
    match record.stages.get? stageId with
    | some _ => record
    | none =>
      { record with
        stages := record.stages.set stageId
          { stageId := stageId
            state := state
            enteredAt := enteredAt
            branchId := branchId } }
  | .stageStateChanged stageId newState exitedAt failureCode =>
    match record.stages.get? stageId with
    | none => record
    | some existing =>
      { record with
        stages := record.stages.set stageId
          { existing with
            state := newState
            exitedAt := Text.orElse exitedAt existing.exitedAt
            failureCode := Text.orElse failureCode existing.failureCode } }
  | .branchOpened branchId stageId state openedAt parentBranchId proposedBy =>
    match record.branches.get? branchId with
    | some _ => record
    | none =>
      { record with
        branches := record.branches.set branchId
          { branchId := branchId
            stageId := stageId
            state := state
            openedAt := openedAt
            parentBranchId := parentBranchId
            proposedBy := proposedBy } }
  | .branchStateChanged branchId newState failureCode =>
    match record.branches.get? branchId with
    | none => record
    | some existing =>
      { record with
        branches := record.branches.set branchId
          { existing with
            state := newState
            failureCode := Text.orElse failureCode existing.failureCode } }
  | .humanGateOpened gateRef _ =>
    { record with openHumanGates := insertText gateRef record.openHumanGates }
  | .humanGateResolved gateRef _ =>
    { record with
      openHumanGates := insertText gateRef record.openHumanGates
      resolvedHumanGates := insertText gateRef record.resolvedHumanGates }
  | .escalationResolved _ => record

/-- `_rebuild_trace_state_from_events`, over the events loaded. -/
def rebuild (record : RunRecord) (events : List RuntimeEvent) : RunRecord :=
  let traceEvents := events.filter (fun event => Text.startsWith event.eventType "trace.")
  { run apply record (traceEvents.filterMap readTraceEvent) with
    rebuildOffset := traceEvents.foldl (fun m event => max m event.commitOffset) record.rebuildOffset }

end RunRecord

/-! ### Operations -/

namespace Notification

/-- Whether the operation tracks its run. -/
def touches : Notification → Bool
  | .spawnChildRun .. | .escalateRecovery .. | .heartbeatTimeout .. => false
  | _ => true

/-- When a stage is left, by what it is marked with. -/
def exitedAt (newState : TraceStageState) (now : String) : Option String :=
  if newState ∈ [.completed, .failed] then some now else none

/-- The trace event the operation appends. -/
def traceEvent (n : Notification) (now : String) : Option TraceEvent :=
  match n with
  | .openStage stageId _ branchId => some (.stageOpened stageId .active now branchId)
  | .markStageState _ stageId newState failureCode =>
    some (.stageStateChanged stageId newState (exitedAt newState now) failureCode)
  | .openBranch request => some (.branchOpened request.branchId request.stageId .active now
      request.parentBranchId request.proposedBy)
  | .markBranchState request => some (.branchStateChanged request.branchId request.newState
      (request.failureCode.map TraceFailureCode.value))
  | .openHumanGate request => some (.humanGateOpened request.gateRef request.gateType)
  | .submitApproval request => some (.humanGateResolved request.approvalRef request.approved)
  | .resolveEscalation _ resolutionNotes _ => some (.escalationResolved resolutionNotes)
  | .spawnChildRun .. | .escalateRecovery .. | .heartbeatTimeout .. => none

end Notification

/-- How an operation finds the record: it raises, drops a duplicate, or goes on. -/
inductive Performed where
  | raised
  | dropped
  | goesOn (record : RunRecord)

/-- What an operation does to the record of its run before it signals. -/
def RunRecord.perform (record : RunRecord) (now : String) : Notification → Performed
  | .openStage stageId _ branchId => .goesOn
    { record with
      stages := record.stages.set stageId
        { stageId := stageId
          state := .active
          enteredAt := now
          branchId := branchId } }
  | .markStageState _ stageId newState failureCode =>
    match record.stages.get? stageId with
    | none => .raised
    | some existing => .goesOn
      { record with
        stages := record.stages.set stageId
          { existing with
            state := newState
            exitedAt := Text.orElse (Notification.exitedAt newState now) existing.exitedAt
            failureCode := failureCode.or existing.failureCode } }
  | .openBranch request => .goesOn
    { record with
      branches := record.branches.set request.branchId
        { branchId := request.branchId
          stageId := request.stageId
          state := .active
          openedAt := now
          parentBranchId := request.parentBranchId
          proposedBy := request.proposedBy } }
  | .markBranchState request =>
    match record.branches.get? request.branchId with
    | none => .raised
    | some existing => .goesOn
      { record with
        branches := record.branches.set request.branchId
          { existing with
            state := request.newState
            failureCode := (request.failureCode.map TraceFailureCode.value).or existing.failureCode } }
  | .openHumanGate request => .goesOn
    { record with
      openHumanGates := insertText request.gateRef record.openHumanGates
      gateTypes := record.gateTypes.set request.gateRef request.gateType }
  | .submitApproval request =>
    if request.approvalRef ∈ record.submittedApprovals then .dropped
    else .goesOn (record.withApproval request)
  | .resolveEscalation .. | .spawnChildRun .. | .escalateRecovery .. | .heartbeatTimeout .. =>
    .goesOn record

/-! ### Changes of one entry -/

namespace TraceEvent

/-- An opening is written with the state active. -/
def OpensActive : TraceEvent → Prop
  | .stageOpened _ state _ _ => state = .active
  | .branchOpened _ _ state _ _ _ => state = .active
  | _ => True

/-- What the operation is to a stage. -/
def stageTouch (stageId : String) : TraceEvent → Option (Touch TraceStageState)
  | .stageOpened id _ _ _ => if id = stageId then some .opened else none
  | .stageStateChanged id newState _ _ => if id = stageId then some (.marked newState) else none
  | _ => none

/-- What the operation is to a branch. -/
def branchTouch (branchId : String) : TraceEvent → Option (Touch TraceBranchState)
  | .branchOpened id _ _ _ _ _ => if id = branchId then some .opened else none
  | .branchStateChanged id newState _ => if id = branchId then some (.marked newState) else none
  | _ => none

/-- The gate the operation is about: an approval opens its gate too. -/
def namesGate? : TraceEvent → Option String
  | .humanGateOpened gateRef _ => some gateRef
  | .humanGateResolved gateRef _ => some gateRef
  | _ => none

/-- The gate the operation resolves. -/
def resolvesGate? : TraceEvent → Option String
  | .humanGateResolved gateRef _ => some gateRef
  | _ => none

/-- The gate the operation rejects. -/
def rejectsGate? : TraceEvent → Option String
  | .humanGateResolved gateRef false => some gateRef
  | _ => none

end TraceEvent

theorem traceEvent_opensActive {n : Notification} {now : String} {e : TraceEvent}
    (h : n.traceEvent now = some e) : e.OpensActive := by
  cases n <;> cases h <;> trivial

namespace RunRecord

def stageState (record : RunRecord) (stageId : String) : Option TraceStageState :=
  (record.stages.get? stageId).map TraceStageView.state

def branchState (record : RunRecord) (branchId : String) : Option TraceBranchState :=
  (record.branches.get? branchId).map TraceBranchView.state

/-- **Reading an event absorbs its change of a stage.** -/
theorem apply_stage (record : RunRecord) {e : TraceEvent} (he : e.OpensActive) (stageId : String) :
    (record.apply e).stageState stageId =
      (e.stageTouch stageId).elim (record.stageState stageId)
        (absorb .active (record.stageState stageId)) := by
  unfold stageState
  cases e with
  | stageOpened id state enteredAt branchId =>
    obtain rfl : state = .active := he
    by_cases hid : id = stageId
    · subst hid
      cases hget : record.stages.get? id with
      | some view => simp [apply, TraceEvent.stageTouch, absorb, hget]
      | none => simp [apply, TraceEvent.stageTouch, absorb, hget, Dict.get?_set]
    · have hne : stageId ≠ id := fun h => hid h.symm
      cases hget : record.stages.get? id with
      | some view => simp [apply, TraceEvent.stageTouch, hget, hid]
      | none => simp [apply, TraceEvent.stageTouch, hget, hid, hne, Dict.get?_set]
  | stageStateChanged id newState exitedAt failureCode =>
    by_cases hid : id = stageId
    · subst hid
      cases hget : record.stages.get? id with
      | some view => simp [apply, TraceEvent.stageTouch, absorb, hget, Dict.get?_set]
      | none => simp [apply, TraceEvent.stageTouch, absorb, hget]
    · have hne : stageId ≠ id := fun h => hid h.symm
      cases hget : record.stages.get? id with
      | some view => simp [apply, TraceEvent.stageTouch, hget, hid, hne, Dict.get?_set]
      | none => simp [apply, TraceEvent.stageTouch, hget, hid]
  | branchOpened id stageId' state openedAt parentBranchId proposedBy =>
    cases hget : record.branches.get? id <;> simp [apply, TraceEvent.stageTouch, hget]
  | branchStateChanged id newState failureCode =>
    cases hget : record.branches.get? id <;> simp [apply, TraceEvent.stageTouch, hget]
  | humanGateOpened | humanGateResolved | escalationResolved => rfl

/-- **Reading an event absorbs its change of a branch.** -/
theorem apply_branch (record : RunRecord) {e : TraceEvent} (he : e.OpensActive) (branchId : String) :
    (record.apply e).branchState branchId =
      (e.branchTouch branchId).elim (record.branchState branchId)
        (absorb .active (record.branchState branchId)) := by
  unfold branchState
  cases e with
  | branchOpened id stageId state openedAt parentBranchId proposedBy =>
    obtain rfl : state = .active := he
    by_cases hid : id = branchId
    · subst hid
      cases hget : record.branches.get? id with
      | some view => simp [apply, TraceEvent.branchTouch, absorb, hget]
      | none => simp [apply, TraceEvent.branchTouch, absorb, hget, Dict.get?_set]
    · have hne : branchId ≠ id := fun h => hid h.symm
      cases hget : record.branches.get? id with
      | some view => simp [apply, TraceEvent.branchTouch, hget, hid]
      | none => simp [apply, TraceEvent.branchTouch, hget, hid, hne, Dict.get?_set]
  | branchStateChanged id newState failureCode =>
    by_cases hid : id = branchId
    · subst hid
      cases hget : record.branches.get? id with
      | some view => simp [apply, TraceEvent.branchTouch, absorb, hget, Dict.get?_set]
      | none => simp [apply, TraceEvent.branchTouch, absorb, hget]
    · have hne : branchId ≠ id := fun h => hid h.symm
      cases hget : record.branches.get? id with
      | some view => simp [apply, TraceEvent.branchTouch, hget, hid, hne, Dict.get?_set]
      | none => simp [apply, TraceEvent.branchTouch, hget, hid]
  | stageOpened id state enteredAt branchId' =>
    cases hget : record.stages.get? id <;> simp [apply, TraceEvent.branchTouch, hget]
  | stageStateChanged id newState exitedAt failureCode =>
    cases hget : record.stages.get? id <;> simp [apply, TraceEvent.branchTouch, hget]
  | humanGateOpened | humanGateResolved | escalationResolved => rfl

/-- An operation without an event leaves the record as it is. -/
theorem perform_untraced {record record' : RunRecord} {n : Notification} {now : String}
    (h : record.perform now n = .goesOn record') (hevent : n.traceEvent now = none) : record' = record := by
  cases n <;> cases hevent <;> exact (Performed.goesOn.inj h).symm

/-- **An operation leaves a stage as its change does**; only a stage that is there is marked. -/
theorem perform_stage {record record' : RunRecord} {n : Notification} {now : String} {e : TraceEvent}
    (h : record.perform now n = .goesOn record') (hevent : n.traceEvent now = some e) (stageId : String) :
    (∀ t, e.stageTouch stageId = some t →
      record'.stageState stageId = some (t.state .active) ∧
        (t.mark?.isSome = true → (record.stageState stageId).isSome = true)) ∧
    (e.stageTouch stageId = none → record'.stageState stageId = record.stageState stageId) := by
  cases n <;> cases hevent
  case openStage id _ branchId =>
    cases h
    by_cases hid : id = stageId
    · simp [TraceEvent.stageTouch, stageState, Dict.get?_set, hid, Touch.state, Touch.mark?]
    · have hne : stageId ≠ id := fun h => hid h.symm
      simp [TraceEvent.stageTouch, stageState, Dict.get?_set, hid, hne]
  case markStageState _ id newState failureCode =>
    simp only [perform] at h
    cases hget : record.stages.get? id with
    | none =>
      rw [hget] at h
      cases h
    | some existing =>
      rw [hget] at h
      cases h
      by_cases hid : id = stageId
      · subst hid
        simp [TraceEvent.stageTouch, stageState, Dict.get?_set, Touch.state, hget]
      · have hne : stageId ≠ id := fun h => hid h.symm
        simp [TraceEvent.stageTouch, stageState, Dict.get?_set, hid, hne]
  case openBranch | openHumanGate | resolveEscalation =>
    cases h
    simp [TraceEvent.stageTouch, stageState]
  case markBranchState request =>
    simp only [perform] at h
    split at h
    · cases h
    · cases h
      simp [TraceEvent.stageTouch, stageState]
  case submitApproval request =>
    simp only [perform] at h
    split at h
    · cases h
    · cases h
      simp [TraceEvent.stageTouch, stageState, withApproval]

/-- **An operation leaves a branch as its change does**; only a branch that is there is marked. -/
theorem perform_branch {record record' : RunRecord} {n : Notification} {now : String} {e : TraceEvent}
    (h : record.perform now n = .goesOn record') (hevent : n.traceEvent now = some e) (branchId : String) :
    (∀ t, e.branchTouch branchId = some t →
      record'.branchState branchId = some (t.state .active) ∧
        (t.mark?.isSome = true → (record.branchState branchId).isSome = true)) ∧
    (e.branchTouch branchId = none → record'.branchState branchId = record.branchState branchId) := by
  cases n <;> cases hevent
  case openBranch request =>
    cases h
    by_cases hid : request.branchId = branchId
    · simp [TraceEvent.branchTouch, branchState, Dict.get?_set, hid, Touch.state, Touch.mark?]
    · have hne : branchId ≠ request.branchId := fun h => hid h.symm
      simp [TraceEvent.branchTouch, branchState, Dict.get?_set, hid, hne]
  case markBranchState request =>
    simp only [perform] at h
    cases hget : record.branches.get? request.branchId with
    | none =>
      rw [hget] at h
      cases h
    | some existing =>
      rw [hget] at h
      cases h
      by_cases hid : request.branchId = branchId
      · rw [hid] at hget
        simp [TraceEvent.branchTouch, branchState, Dict.get?_set, Touch.state, hid, hget]
      · have hne : branchId ≠ request.branchId := fun h => hid h.symm
        simp [TraceEvent.branchTouch, branchState, Dict.get?_set, hid, hne]
  case openStage | openHumanGate | resolveEscalation =>
    cases h
    simp [TraceEvent.branchTouch, branchState]
  case markStageState =>
    simp only [perform] at h
    split at h
    · cases h
    · cases h
      simp [TraceEvent.branchTouch, branchState]
  case submitApproval request =>
    simp only [perform] at h
    split at h
    · cases h
    · cases h
      simp [TraceEvent.branchTouch, branchState, withApproval]

/-! ### Gates -/

/-- Reading an event adds the gate it is about. -/
theorem mem_apply_openHumanGates (record : RunRecord) (e : TraceEvent) (gateRef : String) :
    gateRef ∈ (record.apply e).openHumanGates ↔
      gateRef ∈ record.openHumanGates ∨ e.namesGate? = some gateRef := by
  cases e with
  | humanGateOpened | humanGateResolved =>
    simp [apply, mem_insertText, TraceEvent.namesGate?, or_comm, eq_comm]
  | stageOpened id | stageStateChanged id =>
    cases hget : record.stages.get? id <;> simp [apply, hget, TraceEvent.namesGate?]
  | branchOpened id | branchStateChanged id =>
    cases hget : record.branches.get? id <;> simp [apply, hget, TraceEvent.namesGate?]
  | escalationResolved => simp [apply, TraceEvent.namesGate?]

theorem mem_apply_resolvedHumanGates (record : RunRecord) (e : TraceEvent) (gateRef : String) :
    gateRef ∈ (record.apply e).resolvedHumanGates ↔
      gateRef ∈ record.resolvedHumanGates ∨ e.resolvesGate? = some gateRef := by
  cases e with
  | humanGateOpened => simp [apply, TraceEvent.resolvesGate?]
  | humanGateResolved => simp [apply, mem_insertText, TraceEvent.resolvesGate?, or_comm, eq_comm]
  | stageOpened id | stageStateChanged id =>
    cases hget : record.stages.get? id <;> simp [apply, hget, TraceEvent.resolvesGate?]
  | branchOpened id | branchStateChanged id =>
    cases hget : record.branches.get? id <;> simp [apply, hget, TraceEvent.resolvesGate?]
  | escalationResolved => simp [apply, TraceEvent.resolvesGate?]

/-- **Reading an event does not restore how a gate was resolved.** -/
@[simp] theorem apply_gateResolutions (record : RunRecord) (e : TraceEvent) :
    (record.apply e).gateResolutions = record.gateResolutions := by
  cases e with
  | humanGateOpened | humanGateResolved | escalationResolved => rfl
  | stageOpened id | stageStateChanged id => cases hget : record.stages.get? id <;> simp [apply, hget]
  | branchOpened id | branchStateChanged id => cases hget : record.branches.get? id <;> simp [apply, hget]

/-- What an operation does to the gates. -/
structure GatesPerformed (e : TraceEvent) (record record' : RunRecord) : Prop where
  opened : ∀ gateRef ∈ record.openHumanGates, gateRef ∈ record'.openHumanGates
  openedBy : ∀ gateRef ∈ record'.openHumanGates,
    gateRef ∈ record.openHumanGates ∨ e.namesGate? = some gateRef
  resolved : ∀ gateRef ∈ record.resolvedHumanGates, gateRef ∈ record'.resolvedHumanGates
  resolvedBy : ∀ gateRef ∈ record'.resolvedHumanGates,
    gateRef ∈ record.resolvedHumanGates ∨ e.resolvesGate? = some gateRef
  rejectedBy : ∀ gateRef, record'.gateResolutions.get? gateRef = some .rejected →
    record.gateResolutions.get? gateRef = some .rejected ∨ e.rejectsGate? = some gateRef
  offset : record'.rebuildOffset = record.rebuildOffset

theorem gatesPerformed_of_eq {e : TraceEvent} {record record' : RunRecord}
    (hopen : record'.openHumanGates = record.openHumanGates)
    (hresolved : record'.resolvedHumanGates = record.resolvedHumanGates)
    (hresolutions : record'.gateResolutions = record.gateResolutions)
    (hoffset : record'.rebuildOffset = record.rebuildOffset) : GatesPerformed e record record' where
  opened := fun gateRef h => by rwa [hopen]
  openedBy := fun gateRef h => .inl (by rwa [← hopen])
  resolved := fun gateRef h => by rwa [hresolved]
  resolvedBy := fun gateRef h => .inl (by rwa [← hresolved])
  rejectedBy := fun gateRef h => .inl (by rwa [← hresolutions])
  offset := hoffset

theorem perform_gates {record record' : RunRecord} {n : Notification} {now : String} {e : TraceEvent}
    (h : record.perform now n = .goesOn record') (hevent : n.traceEvent now = some e) :
    GatesPerformed e record record' := by
  cases n <;> cases hevent
  case openStage | openBranch | resolveEscalation =>
    cases h
    exact gatesPerformed_of_eq rfl rfl rfl rfl
  case markStageState | markBranchState =>
    simp only [perform] at h
    split at h
    · cases h
    · cases h
      exact gatesPerformed_of_eq rfl rfl rfl rfl
  case openHumanGate request =>
    cases h
    refine ⟨?_, ?_, fun _ h => h, fun _ h => .inl h, fun _ h => .inl h, rfl⟩
    · intro gateRef hmem
      exact mem_insertText.mpr (.inr hmem)
    · intro gateRef hmem
      rcases mem_insertText.mp hmem with rfl | hmem
      · exact .inr rfl
      · exact .inl hmem
  case submitApproval request =>
    simp only [perform] at h
    split at h
    · cases h
    · cases h
      refine ⟨fun _ h => h, fun _ h => .inl h, ?_, ?_, ?_, rfl⟩
      · intro gateRef hmem
        exact mem_insertText.mpr (.inr hmem)
      · intro gateRef hmem
        rcases mem_insertText.mp hmem with rfl | hmem
        · exact .inr rfl
        · exact .inl hmem
      · intro gateRef hrejected
        simp only [withApproval, Dict.get?_set] at hrejected
        split at hrejected
        · rename_i href
          subst href
          have hanswer : request.approved = false := by
            cases happroved : request.approved with
            | false => rfl
            | true =>
              rw [happroved] at hrejected
              cases hrejected
          right
          rw [hanswer]
          rfl
        · exact .inl hrejected

/-! ### Keys -/

/-- The views stand under the ids they carry. -/
structure Named (record : RunRecord) : Prop where
  stages : record.stages.Keyed TraceStageView.stageId
  branches : record.branches.Keyed TraceBranchView.branchId

theorem named_empty : Named {} := ⟨Dict.keyed_empty _, Dict.keyed_empty _⟩

theorem Named.apply {record : RunRecord} (h : record.Named) (e : TraceEvent) : (record.apply e).Named := by
  cases e with
  | humanGateOpened | humanGateResolved | escalationResolved => exact ⟨h.stages, h.branches⟩
  | stageOpened id =>
    simp only [RunRecord.apply]
    split
    · exact h
    · exact ⟨h.stages.set rfl, h.branches⟩
  | stageStateChanged id =>
    simp only [RunRecord.apply]
    split
    · exact h
    · rename_i existing hget
      have hkey : existing.stageId = _ := h.stages.key_get hget
      exact ⟨h.stages.set hkey, h.branches⟩
  | branchOpened id =>
    simp only [RunRecord.apply]
    split
    · exact h
    · exact ⟨h.stages, h.branches.set rfl⟩
  | branchStateChanged id =>
    simp only [RunRecord.apply]
    split
    · exact h
    · rename_i existing hget
      have hkey : existing.branchId = _ := h.branches.key_get hget
      exact ⟨h.stages, h.branches.set hkey⟩

theorem Named.perform {record record' : RunRecord} (h : record.Named) {n : Notification} {now : String}
    (hperform : record.perform now n = .goesOn record') : record'.Named := by
  cases n
  case openStage =>
    cases hperform
    exact ⟨h.stages.set rfl, h.branches⟩
  case openBranch =>
    cases hperform
    exact ⟨h.stages, h.branches.set rfl⟩
  case markStageState =>
    simp only [RunRecord.perform] at hperform
    split at hperform
    · cases hperform
    · rename_i existing hget
      cases hperform
      have hkey : existing.stageId = _ := h.stages.key_get hget
      exact ⟨h.stages.set hkey, h.branches⟩
  case markBranchState =>
    simp only [RunRecord.perform] at hperform
    split at hperform
    · cases hperform
    · rename_i existing hget
      cases hperform
      have hkey : existing.branchId = _ := h.branches.key_get hget
      exact ⟨h.stages, h.branches.set hkey⟩
  case submitApproval =>
    simp only [RunRecord.perform] at hperform
    split at hperform
    · cases hperform
    · cases hperform
      exact ⟨h.stages, h.branches⟩
  case openHumanGate | resolveEscalation | spawnChildRun | escalateRecovery | heartbeatTimeout =>
    cases hperform
    exact ⟨h.stages, h.branches⟩

end RunRecord
end AgentKernel.Facade
