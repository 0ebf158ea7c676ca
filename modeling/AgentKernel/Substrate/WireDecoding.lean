import AgentKernel.Persistence.ProjectionCache
import AgentKernel.Projection.Fold

/-! What the gateway reads off the wire.

A query answers with the `asdict` of a projection, a stream query with those of events, and
the gateway rebuilds the records field by field. It leaves out the two fields the projection
got last and the schema version of an event, which come back as their defaults. So the
records come back exactly when they have the defaults there (`wire_decoding_iff`). -/
namespace AgentKernel.Substrate
open Lib Persistence

/-! ### The wire -/

def eventClassTexts : List (EventClass × String) := [(.fact, "fact"), (.derived, "derived")]

def eventAuthorityTexts : List (EventAuthority × String) :=
  [(.authoritativeFact, "authoritative_fact"), (.derivedReplayable, "derived_replayable"),
   (.derivedDiagnostic, "derived_diagnostic")]

def wakePolicyTexts : List (WakePolicy × String) :=
  [(.wakeActor, "wake_actor"), (.projectionOnly, "projection_only")]

/-- `dataclasses.asdict` of a projection; `_projection_to_dict` makes the same. -/
def projectionAsdict (p : RunProjection) : Payload := projectionToDict p

/-- `dataclasses.asdict` of an event. -/
def eventAsdict (e : RuntimeEvent) : Payload :=
  [("run_id", .str e.runId),
   ("event_id", .str e.eventId),
   ("commit_offset", .int e.commitOffset),
   ("event_type", .str e.eventType),
   ("event_class", textIn eventClassTexts e.eventClass),
   ("event_authority", textIn eventAuthorityTexts e.eventAuthority),
   ("ordering_key", .str e.orderingKey),
   ("wake_policy", textIn wakePolicyTexts e.wakePolicy),
   ("created_at", .str e.createdAt),
   ("idempotency_key", optionalText e.idempotencyKey),
   ("payload_ref", optionalText e.payloadRef),
   ("payload_json", (e.payloadJson.map .dict).getD .none),
   ("schema_version", .str e.schemaVersion)]

/-! ### Coercions -/

/-- `dict.get` with a default. -/
def getOr (d : Payload) (key : String) (default : Value) : Value := (d.lookup key).getD default

/-- `int(value)`; texts and floats, which an `asdict` has none of here, are not read. -/
def intOf : Value → Except PyError Int
  | .int i => .ok i
  | .bool b => .ok (if b then 1 else 0)
  | _ => .error foreignValue

def boolOf (v : Value) : Except PyError Bool := v.truth (fun _ => .ok true)

/-! ### The decoders -/

structure QueryRunResponse where
  runId : String
  lifecycleState : RunLifecycleState
  projectedOffset : Int
  waitingExternal : Bool
  currentActionId : Option String := none
  recoveryMode : Option RecoveryMode := none
  recoveryReason : Option String := none
  activeChildRuns : List String := []

/-- What a query may answer with. -/
inductive ProjectionLike where
  | projection (p : RunProjection)
  | response (r : QueryRunResponse)
  | dict (d : Payload)
  | other

def unsupportedProjection : PyError :=
  ⟨.typeError, "Unsupported projection payload returned by Temporal query."⟩

def queryProjection (runId : String) : ProjectionLike → Except PyError RunProjection
  | .projection p => .ok p
  | .response r =>
    .ok
      { runId := r.runId
        lifecycleState := r.lifecycleState
        projectedOffset := r.projectedOffset
        waitingExternal := r.waitingExternal
        currentActionId := r.currentActionId
        recoveryMode := r.recoveryMode
        recoveryReason := r.recoveryReason
        activeChildRuns := r.activeChildRuns
        readyForDispatch := false }
  | .dict d => do
    return {
      runId := (getOr d "run_id" (.str runId)).text
      lifecycleState := ← asOneOf lifecycleStateTexts (getOr d "lifecycle_state" (.str "created"))
      projectedOffset := ← intOf (getOr d "projected_offset" (.int 0))
      waitingExternal := ← boolOf (getOr d "waiting_external" (.bool false))
      currentActionId := ← asOptionalText (Value.field d "current_action_id")
      recoveryMode := ← asOptionalOneOf recoveryModeTexts (Value.field d "recovery_mode")
      recoveryReason := ← asOptionalText (Value.field d "recovery_reason")
      activeChildRuns := ← asTexts (getOr d "active_child_runs" (.list []))
      readyForDispatch := ← boolOf (getOr d "ready_for_dispatch" (.bool false)) }
  | .other => .error unsupportedProjection

inductive StreamItem where
  | event (e : RuntimeEvent)
  | value (v : Value)

/-- What a stream query may answer with; a dictionary has a list under its `events` or
none. -/
inductive StreamPayload where
  | none
  | dict (events : Option (List StreamItem))
  | list (items : List StreamItem)
  | other

def unsupportedStream : PyError :=
  ⟨.typeError, "Unsupported runtime event stream payload returned by Temporal query."⟩

def unsupportedItem : PyError :=
  ⟨.typeError, "Unsupported runtime event item returned by Temporal query."⟩

/-- `_coerce_runtime_event`. -/
def coerceRuntimeEvent (runId : String) : StreamItem → Except PyError RuntimeEvent
  | .event e => .ok e
  | .value (.dict d) => do
    return {
      runId := (getOr d "run_id" (.str runId)).text
      eventId := (getOr d "event_id" (.str "")).text
      commitOffset := ← intOf (getOr d "commit_offset" (.int 0))
      eventType := (getOr d "event_type" (.str "")).text
      eventClass := ← asOneOf eventClassTexts (.str (getOr d "event_class" (.str "fact")).text)
      eventAuthority := ← asOneOf eventAuthorityTexts
        (.str (getOr d "event_authority" (.str "authoritative_fact")).text)
      orderingKey := (getOr d "ordering_key" (.str runId)).text
      wakePolicy := ← asOneOf wakePolicyTexts
        (.str (getOr d "wake_policy" (.str "projection_only")).text)
      createdAt := (getOr d "created_at" (.str "")).text
      idempotencyKey := (Value.field d "idempotency_key").str?
      payloadRef := (Value.field d "payload_ref").str?
      payloadJson := (Value.field d "payload_json").dict? }
  | .value _ => .error unsupportedItem

/-- `_normalize_event_stream_payload`. -/
def normalizeEventStreamPayload (runId : String) : StreamPayload → Except PyError (List RuntimeEvent)
  | .none => .ok []
  | .dict (some items) | .list items => items.mapM (coerceRuntimeEvent runId)
  | .dict none | .other => .error unsupportedStream

/-! ### What comes back -/

theorem asOneOf_state (s : RunLifecycleState) :
    asOneOf lifecycleStateTexts (textIn lifecycleStateTexts s) = .ok s := by
  cases s <;> rfl

theorem asOptionalOneOf_mode (m : Option RecoveryMode) :
    asOptionalOneOf recoveryModeTexts ((m.map (textIn recoveryModeTexts)).getD .none) = .ok m := by
  cases m with
  | none => rfl
  | some m => cases m <;> rfl

theorem asTexts_read (texts : List String) : asTexts (.list (texts.map .str)) = .ok texts := by
  show (texts.map Value.str).mapM asText = _
  induction texts with
  | nil => rfl
  | cons s rest ih =>
    rw [List.map_cons, List.mapM_cons, ih]
    rfl

theorem asOneOf_class (c : EventClass) :
    asOneOf eventClassTexts (.str (textIn eventClassTexts c).text) = .ok c := by
  cases c <;> rfl

theorem asOneOf_authority (a : EventAuthority) :
    asOneOf eventAuthorityTexts (.str (textIn eventAuthorityTexts a).text) = .ok a := by
  cases a <;> rfl

theorem asOneOf_wake (w : WakePolicy) :
    asOneOf wakePolicyTexts (.str (textIn wakePolicyTexts w).text) = .ok w := by
  cases w <;> rfl

theorem text_str (s : String) : (Value.str s).text = s := rfl

theorem payload_dict? (payload : Option Payload) : ((payload.map Value.dict).getD .none).dict? = payload := by
  cases payload <;> rfl

/-- **A projection comes back without what it got last.** -/
theorem queryProjection_asdict (runId : String) (p : RunProjection) :
    queryProjection runId (.dict (projectionAsdict p)) =
      .ok { p with policyVersions := none, taskContractRef := none } := by
  unfold queryProjection projectionAsdict projectionToDict
  simp only [getOr, Value.field, List.lookup_cons, Option.getD_some, String.reduceBEq, asOneOf_state,
    asOptionalText_read, asOptionalOneOf_mode, asTexts_read, text_str, intOf, boolOf, Value.truth,
    bind, Except.bind, pure, Except.pure]

/-- **An event comes back without its schema version.** -/
theorem coerceRuntimeEvent_asdict (runId : String) (e : RuntimeEvent) :
    coerceRuntimeEvent runId (.value (.dict (eventAsdict e))) = .ok { e with schemaVersion := "1" } := by
  unfold coerceRuntimeEvent eventAsdict
  simp only [getOr, Value.field, List.lookup_cons, Option.getD_some, String.reduceBEq, asOneOf_class,
    asOneOf_authority, asOneOf_wake, Value.str?_optionalText, payload_dict?, text_str, intOf,
    bind, Except.bind, pure, Except.pure]

theorem normalizeEventStreamPayload_asdict (runId : String) (es : List RuntimeEvent) :
    normalizeEventStreamPayload runId (.list (es.map (fun e => .value (.dict (eventAsdict e))))) =
      .ok (es.map (fun e => { e with schemaVersion := "1" })) := by
  show (es.map (fun e => StreamItem.value (.dict (eventAsdict e)))).mapM (coerceRuntimeEvent runId) = _
  induction es with
  | nil => rfl
  | cons e rest ih =>
    rw [List.map_cons, List.mapM_cons, coerceRuntimeEvent_asdict, ih]
    rfl

/-- **What is decoded is what was sent exactly when the fields that are left out have their
defaults.** -/
theorem wire_decoding_iff (runId : String) (p : RunProjection) (es : List RuntimeEvent) :
    (queryProjection runId (.dict (projectionAsdict p)) = .ok p ↔
      p.policyVersions = none ∧ p.taskContractRef = none) ∧
    (normalizeEventStreamPayload runId
        (.list (es.map (fun e => .value (.dict (eventAsdict e))))) = .ok es ↔
      ∀ e ∈ es, e.schemaVersion = "1") := by
  rw [queryProjection_asdict, normalizeEventStreamPayload_asdict]
  refine ⟨⟨fun h => ?_, fun ⟨hversions, hcontract⟩ => ?_⟩, ⟨fun h => ?_, fun h => ?_⟩⟩
  · have hp := Except.ok.inj h
    exact ⟨hp ▸ rfl, hp ▸ rfl⟩
  · rw [← hversions, ← hcontract]
  · intro e he
    have hes := Except.ok.inj h
    rw [← hes] at he
    obtain ⟨e', -, rfl⟩ := List.mem_map.mp he
    rfl
  · congr 1
    calc
      es.map (fun e => { e with schemaVersion := "1" }) = es.map id :=
        List.map_congr_left (fun e he => by rw [← h e he]; rfl)
      _ = es := List.map_id es

namespace Sample

/-- A projection whose run has its policy versions pinned. -/
def pinnedProjection : RunProjection :=
  { Projection.defaultProjection "run" with policyVersions := some { pinnedAt := "t" } }

def migratedEvent : RuntimeEvent :=
  { Projection.factEvent "run" "run.ready" 1 none with schemaVersion := "2" }

end Sample

/-- A pinned run loses its policy versions, a migrated event its schema version. -/
theorem wire_decoding_loses :
    queryProjection "run" (.dict (projectionAsdict Sample.pinnedProjection)) ≠
        .ok Sample.pinnedProjection ∧
      normalizeEventStreamPayload "run" (.list [.value (.dict (eventAsdict Sample.migratedEvent))]) ≠
        .ok [Sample.migratedEvent] := by
  refine ⟨fun h => ?_, fun h => ?_⟩
  · rw [queryProjection_asdict] at h
    exact absurd (congrArg RunProjection.policyVersions (Except.ok.inj h)) (by decide)
  · have hes := (normalizeEventStreamPayload_asdict "run" [Sample.migratedEvent]).symm.trans h
    obtain ⟨hevent, -⟩ := List.cons.inj (Except.ok.inj hes)
    exact absurd (congrArg RuntimeEvent.schemaVersion hevent) (by decide)

end AgentKernel.Substrate
