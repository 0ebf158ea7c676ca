import AgentKernel.Lib.Run
import AgentKernel.Lib.Trace
import AgentKernel.Turns.Policy

/-! The turn engine: `run_turn` through its six phases, and many turns at once.

A turn is a coroutine. `Progress` is where it stands: before a phase, or awaiting
one of its ports with everything the phases so far have written. A step runs a turn
from one such point to the next, and is atomic, since nothing between two awaits
gives up the event loop; the dedupe phase in particular awaits nothing. A `System`
is any number of turns over one dedupe store, and a run of it is any order of their
steps, each with its own behaviour of the ports. What the turns did to the world,
in order, is in its `trace`. -/
namespace AgentKernel.Turns
open Lib Dedupe IdempotencyKeyPolicy

/-! ### Results -/

inductive TurnState where
  | collecting
  | intentCommitted
  | reasoning
  | snapshotBuilt
  | admissionChecked
  | dispatchBlocked
  | dispatched
  | dispatchAcknowledged
  | effectUnknown
  | effectRecorded
  | recoveryPending
  | completedNoop
  /-- Emitted when the reasoning loop failed. -/
  | reasoningFailed
  /-- Emitted when the dedupe store failed. -/
  | dedupeDegraded
  deriving DecidableEq, Repr

inductive TurnOutcomeKind where
  | noop
  | blocked
  | dispatched
  | recoveryPending
  deriving DecidableEq, Repr

structure TurnStateEvent where
  state : TurnState
  reason : Option String := none
  metadata : List (String × String) := []
  deriving DecidableEq, Repr

/-- What an acknowledged dispatch commits. -/
structure DispatchCommit where
  actionId : String
  runId : String
  committedAt : String
  executionContext : ExecutionContext
  deriving DecidableEq, Repr

structure TurnResult where
  state : TurnState
  outcomeKind : TurnOutcomeKind
  decisionRef : String
  decisionFingerprint : String
  dispatchDedupeKey : Option String := none
  intentCommitRef : Option String := none
  hostKind : Option HostKind := none
  remotePolicyDecision : Option RemoteDispatchPolicyDecision := none
  actionCommit : Option DispatchCommit := none
  recoveryInput : Option FailureEnvelope := none
  emittedEvents : List TurnStateEvent := []
  deriving DecidableEq, Repr

/-- How `run_turn` ends. -/
inductive TurnOutcome where
  | returned (result : TurnResult)
  | raised (r : Raised)
  deriving DecidableEq, Repr

/-! ### Turns -/

structure TurnEngineDefaults where
  modelRef : String := "echo"
  tenantPolicyRef : String := "policy:default"
  permissionMode : String := "strict"

/-- How an engine is configured. -/
structure TurnEngine where
  hasSnapshotInputResolver : Bool := false
  requireDeclaredSnapshotInputs : Bool := false
  hasReasoningLoop : Bool := false
  admissionServiceName : String := "AdmissionService"
  admitCallable : Bool := true
  executorTakesContext : Bool := true
  phaseTimeoutMs : Option Int := none
  defaults : TurnEngineDefaults := {}

/-- What a turn is about once its snapshot is built. -/
structure Candidate where
  input : TurnInput
  action : Action
  snapshot : CapabilitySnapshot

namespace Candidate

def policyKey (H : Digest) (c : Candidate) : String :=
  generate H c.input.runId c.action c.snapshot.snapshotHash

def legacyKey (c : Candidate) : String :=
  legacyDispatchDedupeKey c.input.runId c.action.actionId c.input.basedOnOffset

def identity (H : Digest) (c : Candidate) : TurnIdentity :=
  buildTurnIdentity H c.input c.action (some c.snapshot.snapshotHash)

theorem legacyKey_ne_policyKey (H : Digest) (c : Candidate) : c.legacyKey ≠ c.policyKey H :=
  legacy_ne_generate H _ _ _ _

end Candidate

/-- A candidate that passed the dedupe phase. -/
structure Dispatch where
  candidate : Candidate
  admission : AdmissionValue
  policy : DispatchPolicy
  envelope : IdempotencyEnvelope
  dedupeAvailable : Bool
  legacyAliasKey : Option String

def Dispatch.context (H : Digest) (d : Dispatch) : ExecutionContext :=
  buildExecutionContext d.candidate.input d.candidate.action d.candidate.snapshot
    (d.candidate.identity H) d.admission d.envelope

/-- Where a turn stands: before a phase, or awaiting a port. -/
inductive Progress where
  | noopOrReasoning (action : Option Action)
  | reasoning (request : ReasoningRequest)
  | snapshot (action : Action)
  | admission (c : Candidate)
  | admitting (c : Candidate)
  | dispatchPolicy (c : Candidate) (admission : AdmissionValue)
  | dedupe (c : Candidate) (admission : AdmissionValue) (policy : DispatchPolicy)
  | execute (d : Dispatch)
  | executing (d : Dispatch) (call : ExecutorCall)
  | finished (outcome : TurnOutcome)

structure Turn where
  engine : TurnEngine
  input : TurnInput
  events : List TurnStateEvent
  progress : Progress

/-- `run_turn(input_value, action)`, not yet started. -/
def Turn.start (engine : TurnEngine) (input : TurnInput) (action : Option Action) : Turn :=
  { engine := engine
    input := input
    events := [{ state := .collecting }, { state := .intentCommitted }]
    progress := .noopOrReasoning action }

/-- What a turn does that others can see, or that decides whether it may. -/
inductive Happening where
  /-- The admission service answered. -/
  | admission (result : AdmissionValue)
  /-- The store answered a `reserve_and_dispatch`. -/
  | reservation (key : String) (accepted : Bool)
  /-- The turn was blocked in the dedupe phase. -/
  | duplicate (c : Candidate)
  /-- The turn passed the dedupe phase. -/
  | dispatched (c : Candidate)
  /-- The executor was invoked. -/
  | execute (c : Candidate) (call : ExecutorCall)
  /-- The awaited execution ended. -/
  | executed (c : Candidate) (answer : Awaited ExecuteResult)

/-- One step of a turn. -/
structure Move where
  events : List TurnStateEvent
  progress : Progress
  happened : List Happening := []

def Move.raise (events : List TurnStateEvent) (r : Raised) : Move :=
  { events := events, progress := .finished (.raised r) }

def Move.return (result : TurnResult) (happened : List Happening) : Move :=
  { events := result.emittedEvents, progress := .finished (.returned result), happened := happened }

/-- The same step with more seen of it. -/
def Move.observed (seen : List Happening) (m : Move) : Move :=
  { m with happened := m.happened ++ seen }

/-! ### Phase 1: the action -/

def noopResult (input : TurnInput) (events : List TurnStateEvent) : TurnResult :=
  { state := .completedNoop
    outcomeKind := .noop
    decisionRef := "decision:" ++ input.runId ++ ":" ++ toString input.basedOnOffset
    decisionFingerprint :=
      input.runId ++ ":" ++ input.triggerType.text ++ ":noop:" ++ toString input.basedOnOffset
    emittedEvents := events ++ [{ state := .completedNoop }] }

/-- The turn degrades to a noop when the reasoning loop, or the snapshot made for it,
raises an `Exception`. -/
def reasoningFailed (t : Turn) : Raised → Move
  | .exception _ => .return (noopResult t.input (t.events ++ [{ state := .reasoningFailed }])) []
  | .exit name => .raise t.events (.exit name)

def phaseNoopOrReasoning (t : Turn) (ports : Ports) (action : Option Action) : Move :=
  match action with
  | some action => { events := t.events, progress := .snapshot action }
  | none =>
    if ¬ t.engine.hasReasoningLoop then .return (noopResult t.input t.events) []
    else
      let t := { t with events := t.events ++ [{ state := .reasoning }] }
      let snapshotInput : CapabilitySnapshotInput :=
        { runId := t.input.runId
          basedOnOffset := t.input.basedOnOffset
          tenantPolicyRef := t.engine.defaults.tenantPolicyRef
          permissionMode := t.engine.defaults.permissionMode }
      match ports.build snapshotInput with
      | .error r => reasoningFailed t r
      | .ok snapshot =>
        { events := t.events
          progress := .reasoning
            { runId := t.input.runId
              snapshot := snapshot
              history := t.input.history
              modelRef := t.engine.defaults.modelRef
              idempotencyKey :=
                t.input.runId ++ ":" ++ toString t.input.basedOnOffset ++ ":reasoning" } }

def reasoningReturned (t : Turn) : List Action → Move
  | [] => .return (noopResult t.input t.events) []
  | action :: _ => { events := t.events, progress := .snapshot action }

/-! ### Phase 2: the snapshot -/

def resolveSnapshotInput (t : Turn) (ports : Ports) (action : Action) :
    Except Raised CapabilitySnapshotInput :=
  if t.engine.hasSnapshotInputResolver then ports.resolve t.input action
  else declaredSnapshotInput ports.iterate t.input action t.engine.requireDeclaredSnapshotInputs

def buildSnapshot (t : Turn) (ports : Ports) (action : Action) :
    Except Raised CapabilitySnapshot := do
  let snapshotInput ← resolveSnapshotInput t ports action
  let snapshot ← ports.build snapshotInput
  assertSnapshotCompatible snapshot
  .ok snapshot

/-- A turn whose snapshot cannot be built is a noop under its legacy identity. -/
def snapshotFailed (H : Digest) (t : Turn) (action : Action) : Move :=
  let identity := buildTurnIdentity H t.input action none
  .return
    { state := .completedNoop
      outcomeKind := .noop
      decisionRef := identity.decisionRef
      decisionFingerprint := identity.decisionFingerprint
      dispatchDedupeKey := some identity.dispatchDedupeKey
      intentCommitRef := some identity.intentCommitRef
      emittedEvents := t.events ++ [{ state := .completedNoop }] } []

def phaseSnapshot (H : Digest) (t : Turn) (ports : Ports) (action : Action) : Move :=
  match buildSnapshot t ports action with
  | .ok snapshot =>
    { events := t.events ++ [{ state := .snapshotBuilt }]
      progress := .admission ⟨t.input, action, snapshot⟩ }
  | .error (.exception e) =>
    if e.kind.isValueError then snapshotFailed H t action else .raise t.events (.exception e)
  | .error (.exit name) => .raise t.events (.exit name)

/-! ### Phase 3: admission -/

/-- A blocked dispatch; the host is known once the policy is. -/
def blockedResult (H : Digest) (c : Candidate) (policy : Option DispatchPolicy)
    (events : List TurnStateEvent) : TurnResult :=
  { state := .dispatchBlocked
    outcomeKind := .blocked
    decisionRef := (c.identity H).decisionRef
    decisionFingerprint := (c.identity H).decisionFingerprint
    dispatchDedupeKey := some (c.identity H).dispatchDedupeKey
    intentCommitRef := some (c.identity H).intentCommitRef
    hostKind := policy.map (·.hostKind)
    remotePolicyDecision := policy.bind (·.remotePolicyDecision)
    emittedEvents := events }

def phaseAdmission (t : Turn) (c : Candidate) : Move :=
  if t.engine.admitCallable then { events := t.events, progress := .admitting c }
  else .raise t.events (.exception ⟨.typeError,
    "Admission service " ++ Text.quoted t.engine.admissionServiceName ++
      " must implement admit()."⟩)

def admissionReturned (H : Digest) (t : Turn) (c : Candidate) (result : AdmissionValue) : Move :=
  match isAdmitted result with
  | .error r => { Move.raise t.events r with happened := [.admission result] }
  | .ok true =>
    { events := t.events ++ [{ state := .admissionChecked }]
      progress := .dispatchPolicy c result
      happened := [.admission result] }
  | .ok false =>
    .return (blockedResult H c none
      (t.events ++ [{ state := .admissionChecked }, { state := .dispatchBlocked }]))
      [.admission result]

/-! ### Phase 4: dispatch policy -/

def phaseDispatchPolicy (H : Digest) (t : Turn) (c : Candidate) (admission : AdmissionValue) :
    Move :=
  let policy := resolveDispatchPolicy c.action
  if policy.shouldBlock then
    .return (blockedResult H c (some policy)
      (t.events ++ [{ state := .dispatchBlocked, reason := policy.blockReason }])) []
  else { events := t.events, progress := .dedupe c admission policy }

/-! ### Phase 5: the idempotency slot -/

section
variable {σ : Type}

/-- `contextlib.suppress` around a read: `None` when it raises. -/
def suppressed {α : Type} (x : Call PyError σ (Option α)) : Call PyError σ (Option α) :=
  tryCatch x (fun _ => pure none)

/-- What `_reserve_with_degradation` hands back. -/
structure Reserved where
  reservation : DedupeReservation
  envelope : IdempotencyEnvelope
  dedupeAvailable : Bool
  events : List TurnStateEvent

def degraded (envelope : IdempotencyEnvelope) (hostKind : HostKind) (events : List TurnStateEvent)
    (e : PyError) : Reserved :=
  { reservation := .granted
    envelope := { envelope with effectScope := resolveDedupeDowngradeScope hostKind }
    dedupeAvailable := false
    events := events ++
      [{ state := .dedupeDegraded
         reason := some e.kind.name
         metadata := [("from_effect_scope", "idempotent_write"),
           ("to_effect_scope", resolveDedupeDowngradeScope hostKind)] }] }

def reserveWithDegradation (S : DedupeStorePort σ) (envelope : IdempotencyEnvelope)
    (action : Action) (hostKind : HostKind) (events : List TurnStateEvent) :
    Call PyError σ Reserved :=
  tryCatch
    ((fun reservation => ⟨reservation, envelope, true, events⟩) <$>
      S.reserveAndDispatch envelope none)
    (fun e =>
      if action.effectClass ≠ .idempotentWrite then throw e
      else pure (degraded envelope hostKind events e))

/-- The legacy key, if the store already has a record of it. -/
def legacyLookup (S : DedupeStorePort σ) (H : Digest) (c : Candidate) :
    Call PyError σ (Option DedupeRecord) :=
  if c.legacyKey ≠ c.policyKey H then suppressed (S.get c.legacyKey) else pure none

/-- The dispatch's envelope in the historical key shape. -/
def legacyEnvelope (c : Candidate) (envelope : IdempotencyEnvelope) : IdempotencyEnvelope :=
  { envelope with dispatchIdempotencyKey := c.legacyKey }

/-- What the store answered to the mirrored reservation. -/
def mirrorLegacy (S : DedupeStorePort σ) (H : Digest) (c : Candidate) (r : Reserved) :
    Call PyError σ (Option DedupeReservation) :=
  if r.dedupeAvailable ∧ c.legacyKey ≠ c.policyKey H then
    suppressed (some <$> S.reserveAndDispatch (legacyEnvelope c r.envelope)
      r.envelope.peerOperationId)
  else pure none

def blockedAsDuplicate (H : Digest) (c : Candidate) (policy : DispatchPolicy)
    (events : List TurnStateEvent) (happened : List Happening) : Move :=
  .return (blockedResult H c (some policy) (events ++ [{ state := .dispatchBlocked }]))
    (happened ++ [.duplicate c])

def reservationHappened (r : Reserved) : List Happening :=
  if r.dedupeAvailable then
    [.reservation r.envelope.dispatchIdempotencyKey r.reservation.accepted]
  else []

def mirrorHappened (c : Candidate) : Option DedupeReservation → List Happening
  | some r => [.reservation c.legacyKey r.accepted]
  | none => []

/-- The turn is dispatched; the alias is kept if its reservation was accepted. -/
def dispatchAccepted (c : Candidate) (admission : AdmissionValue) (policy : DispatchPolicy)
    (r : Reserved) (mirror : Option DedupeReservation) : Move :=
  { events := r.events ++ [{ state := .dispatched }]
    progress := .execute
      { candidate := c
        admission := admission
        policy := policy
        envelope := r.envelope
        dedupeAvailable := r.dedupeAvailable
        legacyAliasKey := mirror.bind (fun m => if m.accepted then some c.legacyKey else none) }
    happened := reservationHappened r ++ mirrorHappened c mirror ++ [.dispatched c] }

def phaseDedupe (S : DedupeStorePort σ) (H : Digest) (t : Turn) (c : Candidate)
    (admission : AdmissionValue) (policy : DispatchPolicy) : Call PyError σ Move := do
  match ← legacyLookup S H c with
  | some _ => pure (blockedAsDuplicate H c policy t.events [])
  | none => do
    let r ← reserveWithDegradation S
      (resolveIdempotencyEnvelope admission (c.identity H) c.action c.snapshot policy.hostKind)
      c.action policy.hostKind t.events
    if ¬ r.reservation.accepted then
      pure (blockedAsDuplicate H c policy r.events (reservationHappened r))
    else dispatchAccepted c admission policy r <$> mirrorLegacy S H c r

/-! ### Phase 6: execution -/

def executorCall (H : Digest) (t : Turn) (d : Dispatch) : ExecutorCall :=
  { action := d.candidate.action
    snapshot := d.candidate.snapshot
    envelope := d.envelope
    executionContext := if t.engine.executorTakesContext then some (d.context H) else none }

def phaseExecute (H : Digest) (t : Turn) (d : Dispatch) : Move :=
  { events := t.events
    progress := .executing d (executorCall H t d)
    happened := [.execute d.candidate (executorCall H t d)] }

/-- Mark the alias, if there is one, and drop any error. -/
def markAlias (mark : String → Call PyError σ Unit) (aliasKey : Option String) : Call PyError σ Unit :=
  match aliasKey with
  | some key => (mark key).suppress
  | none => pure ()

/-- Mark the dispatch under both keys, if the store took part. -/
def markBoth (d : Dispatch) (markKey : Call PyError σ Unit) (mark : String → Call PyError σ Unit) :
    Call PyError σ Unit :=
  if d.dedupeAvailable then do
    markKey
    markAlias mark d.legacyAliasKey
  else pure ()

def acknowledgedResult (H : Digest) (d : Dispatch) (now : String) (events : List TurnStateEvent) :
    TurnResult :=
  { state := .dispatchAcknowledged
    outcomeKind := .dispatched
    decisionRef := (d.candidate.identity H).decisionRef
    decisionFingerprint := (d.candidate.identity H).decisionFingerprint
    dispatchDedupeKey := some (d.candidate.identity H).dispatchDedupeKey
    intentCommitRef := some (d.candidate.identity H).intentCommitRef
    hostKind := some d.policy.hostKind
    remotePolicyDecision := d.policy.remotePolicyDecision
    actionCommit := some
      { actionId := d.candidate.action.actionId
        runId := d.candidate.input.runId
        committedAt := now
        executionContext := d.context H }
    emittedEvents := events ++ [{ state := .dispatchAcknowledged }] }

def recoveryPendingResult (H : Digest) (d : Dispatch) (result : Payload)
    (events : List TurnStateEvent) : TurnResult :=
  { state := .recoveryPending
    outcomeKind := .recoveryPending
    decisionRef := (d.candidate.identity H).decisionRef
    decisionFingerprint := (d.candidate.identity H).decisionFingerprint
    dispatchDedupeKey := some (d.candidate.identity H).dispatchDedupeKey
    intentCommitRef := some (d.candidate.identity H).intentCommitRef
    hostKind := some d.policy.hostKind
    remotePolicyDecision := d.policy.remotePolicyDecision
    recoveryInput := some (effectUnknownEnvelope d.candidate.input d.candidate.action result)
    emittedEvents := events ++ [{ state := .effectUnknown }, { state := .recoveryPending }] }

def executorReturned (S : DedupeStorePort σ) (H : Digest) (t : Turn) (d : Dispatch) (now : String)
    (result : ExecuteResult) : Call PyError σ Move :=
  let key := (d.candidate.identity H).dispatchDedupeKey
  match result.acknowledged with
  | .error e => throw e
  | .ok true =>
    (fun _ => .return (acknowledgedResult H d now t.events) []) <$>
      markBoth d (S.markAcknowledged key none) (fun k => S.markAcknowledged k none)
  | .ok false =>
    (fun _ => .return (recoveryPendingResult H d result.items t.events) []) <$>
      markBoth d (S.markUnknownEffect key) S.markUnknownEffect

/-- The executor raised: only an `Exception` is caught, marked and raised again. -/
def executorRaised (S : DedupeStorePort σ) (H : Digest) (t : Turn) (d : Dispatch) :
    Raised → Call PyError σ Move
  | .exception e =>
    (fun _ => .raise t.events (.exception e)) <$>
      markBoth d (S.markUnknownEffect (d.candidate.identity H).dispatchDedupeKey).suppress
        S.markUnknownEffect
  | .exit name => pure (.raise t.events (.exit name))

/-! ### One step -/

/-- The deadline of a phase passed while the turn awaited a port. It needs a
configured timeout. -/
def timedOut (t : Turn) (seen : List Happening) : Move :=
  match t.engine.phaseTimeoutMs with
  | some _ => (Move.raise t.events (.exception timeoutError)).observed seen
  | none => { events := t.events, progress := t.progress }

/-- An `Exception` that leaves a phase leaves `run_turn`. -/
def guarded (t : Turn) (x : Call PyError σ Move) : Call PyError σ Move :=
  tryCatch x (fun e => pure (.raise t.events (.exception e)))

/-- What follows the awaited execution. -/
def executionEnded (S : DedupeStorePort σ) (H : Digest) (t : Turn) (d : Dispatch) (now : String) :
    Awaited ExecuteResult → Call PyError σ Move
  | .returned result =>
    Move.observed [.executed d.candidate (.returned result)] <$>
      guarded t (executorReturned S H t d now result)
  | .raised r =>
    Move.observed [.executed d.candidate (.raised r)] <$> guarded t (executorRaised S H t d r)
  | .timedOut => pure (timedOut t [.executed d.candidate .timedOut])

/-- `asyncio.wait_for` with no time left cancels the phase before it starts. -/
def TurnEngine.outOfTime (engine : TurnEngine) : Bool :=
  match engine.phaseTimeoutMs with
  | some ms => decide (ms ≤ 0)
  | none => false

/-- Run a turn from where it stands to its next await or its end. -/
def advance (S : DedupeStorePort σ) (H : Digest) (t : Turn) (ports : Ports) : Call PyError σ Move :=
  match t.progress with
  | .noopOrReasoning action =>
    if t.engine.outOfTime then pure (timedOut t []) else pure (phaseNoopOrReasoning t ports action)
  | .reasoning request =>
    match ports.runOnce request with
    | .returned actions => pure (reasoningReturned t actions)
    | .raised r => pure (reasoningFailed t r)
    | .timedOut => pure (timedOut t [])
  | .snapshot action => pure (phaseSnapshot H t ports action)
  | .admission c => pure (phaseAdmission t c)
  | .admitting c =>
    match ports.evaluateAdmission c.action c.snapshot with
    | .returned result => pure (admissionReturned H t c result)
    | .raised r => pure (.raise t.events r)
    | .timedOut => pure (timedOut t [])
  | .dispatchPolicy c admission => pure (phaseDispatchPolicy H t c admission)
  | .dedupe c admission policy => guarded t (phaseDedupe S H t c admission policy)
  | .execute d => pure (phaseExecute H t d)
  | .executing d call => executionEnded S H t d ports.utcNowIso (ports.execute call)
  | .finished outcome => pure { events := t.events, progress := .finished outcome }

/-- The step a turn takes. No phase lets an `Exception` out. -/
def Turn.move (S : DedupeStorePort σ) (H : Digest) (t : Turn) (ports : Ports) (store : σ) :
    Move × σ :=
  match advance S H t ports store with
  | .ok m store' => (m, store')
  | .error e store' => (.raise t.events (.exception e), store')

def Turn.after (t : Turn) (m : Move) : Turn :=
  { t with events := m.events, progress := m.progress }

/-! ### Many turns -/

/-- What happened, and in which turn. -/
abbrev Observation := Tagged Nat Happening

/-- Any number of turns over one store. -/
structure System (σ : Type) where
  store : σ
  turns : List Turn
  trace : List Observation

/-- A `run_turn` call and the engine it is made on. -/
structure TurnCall where
  engine : TurnEngine
  input : TurnInput
  action : Option Action

def System.start (store : σ) (calls : List TurnCall) : System σ :=
  { store := store
    turns := calls.map (fun c => Turn.start c.engine c.input c.action)
    trace := [] }

/-- Which turn takes the next step, and how the ports behave during it. -/
structure Label where
  turn : Nat
  ports : Ports

def System.step (S : DedupeStorePort σ) (H : Digest) (s : System σ) (l : Label) : System σ :=
  match s.turns[l.turn]? with
  | none => s
  | some t =>
    { store := (t.move S H l.ports s.store).2
      turns := s.turns.set l.turn (t.after (t.move S H l.ports s.store).1)
      trace := s.trace ++ tagged l.turn (t.move S H l.ports s.store).1.happened }

theorem step_trace {S : DedupeStorePort σ} {H : Digest} (s : System σ) (l : Label) :
    ∃ new, (s.step S H l).trace = s.trace ++ tagged l.turn new := by
  unfold System.step
  split
  · exact ⟨[], by simp [tagged]⟩
  · exact ⟨_, rfl⟩

/-- The turns interleaved in the given order. -/
def interleaved (S : DedupeStorePort σ) (H : Digest) (store : σ) (calls : List TurnCall)
    (labels : List Label) : System σ :=
  run (System.step S H) (System.start store calls) labels

end

/-! ### A turn to look at -/

namespace Sample

/-- The SHA-256 of the document the content hash of a sample action is taken of. -/
def contentHash : String := "033804f71bdcfecaaba1418b528d23a3f1a4190c1ff1633326d2518d8c282d7a"

def digest : Digest where
  hexdigest := fun _ => contentHash
  hex := by
    intro _ c hc
    have hall : contentHash.toList.all (· ∈ "0123456789abcdef".toList) = true := rfl
    exact of_decide_eq_true (List.all_eq_true.mp hall c hc)

def input (runId : String) : TurnInput :=
  { runId := runId, throughOffset := 1, basedOnOffset := 1, triggerType := .start }

def action (runId actionId : String) : Action :=
  { actionId := actionId
    runId := runId
    actionType := "tool_call"
    effectClass := .idempotentWrite }

def snapshot : CapabilitySnapshot := { snapshotRef := "ref", snapshotHash := "snapshot-1" }

/-- Every port answers; the execution ends as given. -/
def ports (answer : Awaited ExecuteResult) : Ports where
  resolve := fun _ _ => .error (.exception ⟨.runtimeError, ""⟩)
  iterate := fun _ => .ok []
  build := fun _ => .ok snapshot
  runOnce := fun _ => .returned []
  evaluateAdmission := fun _ _ => .returned (.bool true)
  execute := fun _ => answer
  utcNowIso := "2026-01-01T00:00:00Z"

def acknowledged : Awaited ExecuteResult := .returned { items := [("acknowledged", .bool true)] }

/-- The steps of a turn that reaches the executor, up to its end. -/
def wholeTurn (i : Nat) (answer : Awaited ExecuteResult) : List Label :=
  List.replicate 8 ⟨i, ports answer⟩

def call (engine : TurnEngine) (runId actionId : String) : TurnCall :=
  ⟨engine, input runId, some (action runId actionId)⟩

end Sample

example : (hashPayload (Sample.action "run" "act") Sample.snapshot.snapshotHash).json =
    "\x7b\"action_type\":\"tool_call\",\"effect_class\":\"idempotent_write\"," ++
      "\"input_json\":\x7b\x7d,\"policy_tags\":[],\"snapshot_hash\":\"snapshot-1\"\x7d" := by
  decide

end AgentKernel.Turns
