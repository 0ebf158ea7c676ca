import AgentKernel.Turns.Engine

/-! One turn from its call to its end: `run_turn` over its phase context.

A phase reads what the phases before it left in the context and either leaves its own
or sets the result, and the loop over the phases ends with the first that does. The ports
may behave differently in each phase. What the turn asked of the world is in `calls`, in
order, so that it is known what was asked by the time the turn returned or raised. -/
namespace AgentKernel.Turns.Phases
open Lib Dedupe

/-! ### The context and the world -/

/-- `TurnPhaseContext`. -/
structure TurnPhaseContext where
  input : TurnInput
  action : Option Action
  emittedEvents : List TurnStateEvent
  result : Option TurnResult := none
  turnIdentity : Option TurnIdentity := none
  snapshot : Option CapabilitySnapshot := none
  admissionResult : Option AdmissionValue := none
  dispatchPolicy : Option DispatchPolicy := none
  envelope : Option IdempotencyEnvelope := none
  executeResult : Option ExecuteResult := none
  dedupeAvailable : Bool := true
  dedupeOutcome : String := "accepted"
  legacyAliasKey : Option String := none

def TurnPhaseContext.emit (ctx : TurnPhaseContext) (events : List TurnStateEvent) : TurnPhaseContext :=
  { ctx with emittedEvents := ctx.emittedEvents ++ events }

/-- The turn ends here: the last events, and the result with all of them. -/
def TurnPhaseContext.conclude (ctx : TurnPhaseContext) (events : List TurnStateEvent)
    (result : List TurnStateEvent → TurnResult) : TurnPhaseContext :=
  { ctx.emit events with result := some (result (ctx.emit events).emittedEvents) }

/-- What a turn asks of its ports. -/
inductive PortCall where
  | runOnce (request : ReasoningRequest)
  | admitAction (action : Action) (snapshot : CapabilitySnapshot)
  /-- A reservation under a key, and whether the store raised. -/
  | reserveAndDispatch (key : String) (raised : Bool)
  | execute (call : ExecutorCall)

/-- `None`, which has none of the attributes the engine reads. -/
def noAdmission : AdmissionValue := .object {}

/-- The dedupe store and what was asked of the ports so far. -/
structure World (σ : Type) where
  store : σ
  calls : List PortCall := []

/-- Why a phase is left: something was raised, or its deadline passed. -/
inductive Interrupt where
  | raised (r : Raised)
  | deadline
  deriving DecidableEq, Repr

abbrev Phase (σ α : Type) := Call Interrupt (World σ) α

section
variable {σ : Type} {α : Type}

def ask (c : PortCall) : Phase σ Unit := modify (fun w => { w with calls := w.calls ++ [c] })

def raise (r : Raised) : Phase σ α := throw (.raised r)

def assertSome (x : Option α) : Phase σ α :=
  match x with
  | some a => pure a
  | none => raise (.exception ⟨.other "AssertionError", ""⟩)

def orRaise (x : Except Raised α) : Phase σ α :=
  match x with
  | .ok a => pure a
  | .error r => raise r

/-- `await` of a port. -/
def awaitPort (x : Awaited α) : Phase σ α :=
  match x with
  | .returned a => pure a
  | .raised r => raise r
  | .timedOut => throw .deadline

/-- `try: ... except Exception`. -/
def exceptException (x : Phase σ α) (handle : PyError → Phase σ α) : Phase σ α :=
  tryCatch x (fun i =>
    match i with
    | .raised (.exception e) => handle e
    | i => throw i)

/-- A call of the dedupe store. -/
def ofStore (x : Call PyError σ α) : Phase σ α := fun w =>
  match x w.store with
  | .ok a s => .ok a { w with store := s }
  | .error e s => .error (.raised (.exception e)) { w with store := s }

def reserveAndDispatch (S : DedupeStorePort σ) (envelope : IdempotencyEnvelope)
    (peerOperationId : Option String) : Phase σ DedupeReservation :=
  tryCatch
    (do
      let reservation ← ofStore (S.reserveAndDispatch envelope peerOperationId)
      ask (.reserveAndDispatch envelope.dispatchIdempotencyKey false)
      pure reservation)
    (fun i => do
      ask (.reserveAndDispatch envelope.dispatchIdempotencyKey true)
      throw i)

end

/-! ### Results -/

/-- The turn derived no action. -/
def noActionResult (input : TurnInput) (events : List TurnStateEvent) : TurnResult :=
  { state := .completedNoop
    outcomeKind := .noop
    decisionRef := "decision:" ++ input.runId ++ ":" ++ toString input.basedOnOffset
    decisionFingerprint :=
      input.runId ++ ":" ++ input.triggerType.text ++ ":noop:" ++ toString input.basedOnOffset
    emittedEvents := events }

/-- The snapshot could not be built. -/
def noSnapshotResult (ti : TurnIdentity) (events : List TurnStateEvent) : TurnResult :=
  { state := .completedNoop
    outcomeKind := .noop
    decisionRef := ti.decisionRef
    decisionFingerprint := ti.decisionFingerprint
    dispatchDedupeKey := some ti.dispatchDedupeKey
    intentCommitRef := some ti.intentCommitRef
    emittedEvents := events }

/-- The dispatch was blocked, before its policy was known or after. -/
def blockedResult (ti : TurnIdentity) (dp : Option DispatchPolicy) (events : List TurnStateEvent) :
    TurnResult :=
  { state := .dispatchBlocked
    outcomeKind := .blocked
    decisionRef := ti.decisionRef
    decisionFingerprint := ti.decisionFingerprint
    dispatchDedupeKey := some ti.dispatchDedupeKey
    intentCommitRef := some ti.intentCommitRef
    hostKind := dp.map (·.hostKind)
    remotePolicyDecision := dp.bind (·.remotePolicyDecision)
    emittedEvents := events }

def acknowledgedResult (input : TurnInput) (action : Action) (ti : TurnIdentity) (dp : DispatchPolicy)
    (executionContext : ExecutionContext) (now : String) (events : List TurnStateEvent) : TurnResult :=
  { state := .dispatchAcknowledged
    outcomeKind := .dispatched
    decisionRef := ti.decisionRef
    decisionFingerprint := ti.decisionFingerprint
    dispatchDedupeKey := some ti.dispatchDedupeKey
    intentCommitRef := some ti.intentCommitRef
    hostKind := some dp.hostKind
    remotePolicyDecision := dp.remotePolicyDecision
    actionCommit := some
      { actionId := action.actionId
        runId := input.runId
        committedAt := now
        executionContext := executionContext }
    emittedEvents := events }

/-- `_build_recovery_pending_turn_result`. -/
def recoveryPendingResult (input : TurnInput) (action : Action) (ti : TurnIdentity)
    (dp : DispatchPolicy) (executeResult : Payload) (events : List TurnStateEvent) : TurnResult :=
  { state := .recoveryPending
    outcomeKind := .recoveryPending
    decisionRef := ti.decisionRef
    decisionFingerprint := ti.decisionFingerprint
    dispatchDedupeKey := some ti.dispatchDedupeKey
    intentCommitRef := some ti.intentCommitRef
    hostKind := some dp.hostKind
    remotePolicyDecision := dp.remotePolicyDecision
    recoveryInput := some (effectUnknownEnvelope input action executeResult)
    emittedEvents := events }

/-! ### The phases -/

section
variable {σ : Type} (S : DedupeStorePort σ) (H : Digest) (engine : TurnEngine) (ports : Ports)

def noActionFound (ctx : TurnPhaseContext) (events : List TurnStateEvent) : TurnPhaseContext :=
  ctx.conclude (events ++ [{ state := .completedNoop }]) (noActionResult ctx.input)

/-- The reasoning loop is run on a snapshot built for it. -/
def reason (ctx : TurnPhaseContext) : Phase σ (List Action) := do
  let snapshot ← orRaise (ports.build
    { runId := ctx.input.runId
      basedOnOffset := ctx.input.basedOnOffset
      tenantPolicyRef := engine.defaults.tenantPolicyRef
      permissionMode := engine.defaults.permissionMode })
  let request : ReasoningRequest :=
    { runId := ctx.input.runId
      snapshot := snapshot
      history := ctx.input.history
      modelRef := engine.defaults.modelRef
      idempotencyKey := ctx.input.runId ++ ":" ++ toString ctx.input.basedOnOffset ++ ":reasoning" }
  ask (.runOnce request)
  awaitPort (ports.runOnce request)

/-- Phase 1: resolve the action via the reasoning loop, or return noop. -/
def phaseNoopOrReasoning (ctx : TurnPhaseContext) : Phase σ TurnPhaseContext :=
  match ctx.action with
  | some _ => pure ctx
  | none =>
    if ¬ engine.hasReasoningLoop then pure (noActionFound ctx [])
    else
      let ctx := ctx.emit [{ state := .reasoning }]
      exceptException
        (do
          let actions ← reason engine ports ctx
          match actions with
          | [] => pure (noActionFound ctx [])
          | action :: _ => pure { ctx with action := some action })
        (fun _ => pure (noActionFound ctx [{ state := .reasoningFailed }]))

def resolveSnapshotInput (input : TurnInput) (action : Action) : Except Raised CapabilitySnapshotInput :=
  if engine.hasSnapshotInputResolver then ports.resolve input action
  else declaredSnapshotInput ports.iterate input action engine.requireDeclaredSnapshotInputs

def buildSnapshot (input : TurnInput) (action : Action) : Except Raised CapabilitySnapshot := do
  let snapshotInput ← resolveSnapshotInput engine ports input action
  let snapshot ← ports.build snapshotInput
  assertSnapshotCompatible snapshot
  .ok snapshot

/-- Phase 2: build the capability snapshot; noop on build errors. -/
def phaseSnapshot (ctx : TurnPhaseContext) : Phase σ TurnPhaseContext := do
  let action ← assertSome ctx.action
  let ti := buildTurnIdentity H ctx.input action none
  match buildSnapshot engine ports ctx.input action with
  | .ok snapshot =>
    let ctx :=
      { ctx with
        snapshot := some snapshot
        turnIdentity := some (buildTurnIdentity H ctx.input action (some snapshot.snapshotHash)) }
    pure (ctx.emit [{ state := .snapshotBuilt }])
  | .error (.exception e) =>
    if e.kind.isValueError then
      let ctx := { ctx with turnIdentity := some ti }
      pure (ctx.conclude [{ state := .completedNoop }] (noSnapshotResult ti))
    else raise (.exception e)
  | .error (.exit name) => raise (.exit name)

/-- `_evaluate_admission`. -/
def evaluateAdmission (action : Action) (snapshot : CapabilitySnapshot) : Phase σ AdmissionValue :=
  if engine.admitCallable then do
    ask (.admitAction action snapshot)
    awaitPort (ports.evaluateAdmission action snapshot)
  else
    raise (.exception ⟨.typeError,
      "Admission service " ++ Text.quoted engine.admissionServiceName ++ " must implement admit()."⟩)

/-- Phase 3: evaluate admission; block if not admitted. -/
def phaseAdmission (ctx : TurnPhaseContext) : Phase σ TurnPhaseContext := do
  let action ← assertSome ctx.action
  let snapshot ← assertSome ctx.snapshot
  let ti ← assertSome ctx.turnIdentity
  let admissionResult ← evaluateAdmission engine ports action snapshot
  let admitted ← orRaise (isAdmitted admissionResult)
  let ctx := { ctx with admissionResult := some admissionResult }.emit [{ state := .admissionChecked }]
  if admitted then pure ctx
  else pure (ctx.conclude [{ state := .dispatchBlocked }] (blockedResult ti none))

/-- Phase 4: evaluate the dispatch policy; block if it rejects. -/
def phaseDispatchPolicy (ctx : TurnPhaseContext) : Phase σ TurnPhaseContext := do
  let action ← assertSome ctx.action
  let ti ← assertSome ctx.turnIdentity
  let dp := resolveDispatchPolicy action
  let ctx := { ctx with dispatchPolicy := some dp }
  if dp.shouldBlock then
    pure (ctx.conclude [{ state := .dispatchBlocked, reason := dp.blockReason }]
      (blockedResult ti (some dp)))
  else pure ctx

/-- `_reserve_with_degradation`: the reservation, the envelope to go on with, whether the
store took part, and what was emitted. -/
def reserveWithDegradation (envelope : IdempotencyEnvelope) (action : Action) (hostKind : HostKind) :
    Phase σ (DedupeReservation × IdempotencyEnvelope × Bool × List TurnStateEvent) :=
  exceptException
    (do
      let reservation ← reserveAndDispatch S envelope none
      pure (reservation, envelope, true, []))
    (fun e =>
      if action.effectClass ≠ .idempotentWrite then raise (.exception e)
      else
        let scope := resolveDedupeDowngradeScope hostKind
        pure (.granted, { envelope with effectScope := scope }, false,
          [{ state := .dedupeDegraded
             reason := some e.kind.name
             metadata := [("from_effect_scope", "idempotent_write"), ("to_effect_scope", scope)] }]))

/-- The record under the historical key, if that is another one. -/
def legacyLookup (key legacyKey : String) : Phase σ (Option DedupeRecord) :=
  if legacyKey ≠ key then exceptException (ofStore (S.get legacyKey)) (fun _ => pure none)
  else pure none

/-- The new slot is mirrored under the historical key, so that readers of that key find it;
what the store raises is dropped. The alias is kept if it was accepted. -/
def mirrorLegacy (envelope : IdempotencyEnvelope) (dedupeAvailable : Bool) (key legacyKey : String) :
    Phase σ (Option String) :=
  if dedupeAvailable ∧ legacyKey ≠ key then
    exceptException
      (do
        let reservation ← reserveAndDispatch S { envelope with dispatchIdempotencyKey := legacyKey }
          envelope.peerOperationId
        pure (if reservation.accepted then some legacyKey else none))
      (fun _ => pure none)
  else pure none

/-- Phase 5: reserve the idempotency slot; block if it is already taken. -/
def phaseDedupe (ctx : TurnPhaseContext) : Phase σ TurnPhaseContext := do
  let action ← assertSome ctx.action
  let snapshot ← assertSome ctx.snapshot
  let ti ← assertSome ctx.turnIdentity
  let dp ← assertSome ctx.dispatchPolicy
  let admissionResult := ctx.admissionResult.getD noAdmission
  let legacyKey := legacyDispatchDedupeKey ctx.input.runId action.actionId ctx.input.basedOnOffset
  let legacyRecord ← legacyLookup S ti.dispatchDedupeKey legacyKey
  if legacyRecord.isSome then
    pure (ctx.conclude [{ state := .dispatchBlocked }] (blockedResult ti (some dp)))
  else
    let (reservation, envelope, dedupeAvailable, events) ← reserveWithDegradation S
      (resolveIdempotencyEnvelope admissionResult ti action snapshot dp.hostKind) action dp.hostKind
    let ctx :=
      { ctx with envelope := some envelope, dedupeAvailable := dedupeAvailable }.emit events
    if ¬ reservation.accepted then
      pure (ctx.conclude [{ state := .dispatchBlocked }] (blockedResult ti (some dp)))
    else
      let aliasKey ← mirrorLegacy S envelope dedupeAvailable ti.dispatchDedupeKey legacyKey
      let ctx :=
        { ctx with
          dedupeOutcome := if dedupeAvailable then "accepted" else "degraded"
          legacyAliasKey := aliasKey }
      pure (ctx.emit [{ state := .dispatched }])

/-- Mark a dispatch under its key and, whatever the store raises there, under its alias. -/
def markBoth (ctx : TurnPhaseContext) (markKey : Phase σ Unit) (mark : String → Call PyError σ Unit) :
    Phase σ Unit :=
  if ctx.dedupeAvailable then do
    markKey
    match ctx.legacyAliasKey with
    | some key => exceptException (ofStore (mark key)) (fun _ => pure ())
    | none => pure ()
  else pure ()

/-- `_execute_with_context`. -/
def executeWithContext (call : ExecutorCall) : Phase σ ExecuteResult := do
  ask (.execute call)
  awaitPort (ports.execute call)

/-- Phase 6: call the executor and build the terminal result. -/
def phaseExecute (ctx : TurnPhaseContext) : Phase σ TurnPhaseContext := do
  let action ← assertSome ctx.action
  let snapshot ← assertSome ctx.snapshot
  let ti ← assertSome ctx.turnIdentity
  let dp ← assertSome ctx.dispatchPolicy
  let envelope ← assertSome ctx.envelope
  let admissionResult := ctx.admissionResult.getD noAdmission
  let executionContext := buildExecutionContext ctx.input action snapshot ti admissionResult envelope
  let executeResult ←
    exceptException
      (executeWithContext ports
        { action := action
          snapshot := snapshot
          envelope := envelope
          executionContext := if engine.executorTakesContext then some executionContext else none })
      (fun e => do
        markBoth ctx
          (exceptException (ofStore (S.markUnknownEffect ti.dispatchDedupeKey)) (fun _ => pure ()))
          S.markUnknownEffect
        raise (.exception e))
  let ctx := { ctx with executeResult := some executeResult }
  let acknowledged ← orRaise (executeResult.acknowledged.mapError .exception)
  if acknowledged then
    markBoth ctx (ofStore (S.markAcknowledged ti.dispatchDedupeKey none))
      (fun key => S.markAcknowledged key none)
    pure (ctx.conclude [{ state := .dispatchAcknowledged }]
      (acknowledgedResult ctx.input action ti dp executionContext ports.utcNowIso))
  else
    markBoth ctx (ofStore (S.markUnknownEffect ti.dispatchDedupeKey)) S.markUnknownEffect
    pure (ctx.conclude [{ state := .effectUnknown }, { state := .recoveryPending }]
      (recoveryPendingResult ctx.input action ti dp executeResult.items))

end

/-! ### The loop over the phases -/

inductive TurnPhase where
  | noopOrReasoning
  | snapshot
  | admission
  | dispatchPolicy
  | dedupe
  | execute
  deriving DecidableEq, Repr

/-- `_TURN_PHASES`. -/
def turnPhases : List TurnPhase :=
  [.noopOrReasoning, .snapshot, .admission, .dispatchPolicy, .dedupe, .execute]

/-- How the loop ends without raising from a phase. -/
inductive LoopEnd where
  | returned (result : TurnResult)
  /-- No phase set a result: the `RuntimeError` after the loop. -/
  | exhausted
  deriving DecidableEq, Repr

section
variable {σ : Type} (S : DedupeStorePort σ) (H : Digest) (engine : TurnEngine) (ports : TurnPhase → Ports)

def phase (p : TurnPhase) (ctx : TurnPhaseContext) : Phase σ TurnPhaseContext :=
  match p with
  | .noopOrReasoning => phaseNoopOrReasoning engine (ports p) ctx
  | .snapshot => phaseSnapshot H engine (ports p) ctx
  | .admission => phaseAdmission engine (ports p) ctx
  | .dispatchPolicy => phaseDispatchPolicy ctx
  | .dedupe => phaseDedupe S ctx
  | .execute => phaseExecute S engine (ports p) ctx

/-- A phase under its deadline. -/
def waitFor (p : TurnPhase) (ctx : TurnPhaseContext) : Phase σ TurnPhaseContext :=
  if engine.outOfTime then throw .deadline else phase S H engine ports p ctx

def runPhases : List TurnPhase → TurnPhaseContext → Phase σ LoopEnd
  | [], _ => pure .exhausted
  | p :: rest, ctx => do
    let ctx ← waitFor S H engine ports p ctx
    match ctx.result with
    | some result => pure (.returned result)
    | none => runPhases rest ctx

def runTurn (input : TurnInput) (action : Option Action) : Phase σ LoopEnd :=
  runPhases S H engine ports turnPhases
    { input := input
      action := action
      emittedEvents := [{ state := .collecting }, { state := .intentCommitted }] }

end

end AgentKernel.Turns.Phases
