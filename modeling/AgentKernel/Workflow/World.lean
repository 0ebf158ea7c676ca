import AgentKernel.Events.Journal
import AgentKernel.Projection.Service
import AgentKernel.Reconcile.Histories
import AgentKernel.Workflow.Facts

/-! The run actor among its services.

`RunActorWorkflow` is a set of coroutines over one instance: `run`, `signal` and
`process_action_commit` calls. A call stands at a `Stage`: what it awaits, with all it
still has to know. An await has two halves. First the service acts and answers
(`serve`), then the call continues to its next await or its end (`resume`), and anything
may happen before, between and after the two. Calls that are no coroutine of the
workflow share the world with it: other writers of the event log, turns of the same
engine started elsewhere, and reconciliation sweeps. A run is any order of such steps;
what every service answered, in order, is in the `trace`. -/
namespace AgentKernel.Workflow
open Lib Dedupe Turns Events Projection Reconcile

/-! ### The instance -/

structure Actor where
  runId : Option String := none
  sessionId : Value := .none
  parentRunId : Option String := none
  policyVersions : Option RunPolicyVersions := none
  activeStageId : Option String := none
  lastProjection : Option RunProjection := none
  pendingSignals : List ActorSignal := []
  signalSequence : Nat := 0
  seenSignalTokens : List String := []
  historyEventCount : Nat := 0
  /-- What `continue_as_new` was called with. -/
  continuedAs : Option RunInput := none

/-- The run of an instance; the empty text is none. -/
def Actor.runId? (a : Actor) : Option String :=
  match a.runId with
  | some runId => if runId = "" then none else some runId
  | none => none

def RunLifecycleState.terminal (state : RunLifecycleState) : Bool :=
  state = .completed || state = .aborted

def Actor.isRunTerminal (a : Actor) : Bool :=
  match a.lastProjection with
  | none => false
  | some projection => RunLifecycleState.terminal projection.lifecycleState

def Actor.query (a : Actor) : Except PyError RunProjection :=
  match a.runId? with
  | none => .error ⟨.runtimeError, "RunActorWorkflow.run must be called first."⟩
  | some _ =>
    match a.lastProjection with
    | none => .error ⟨.runtimeError, "RunActorWorkflow projection is not initialized."⟩
    | some projection => .ok projection

/-- How the workflow is put together; by default in strict mode and without a reasoning
loop. -/
structure Kernel (σ : Type) where
  outbox : OutboxStore σ
  digest : Digest
  engine : TurnEngine := { hasSnapshotInputResolver := true, requireDeclaredSnapshotInputs := true }
  hasTurnIntentLog : Bool := false
  hasRecoveryOutcomes : Bool := false
  historyEventThreshold : Int := 10000

/-- What a call finds of the world when it continues. -/
structure Moment where
  now : String := ""
  /-- `_is_temporal_workflow_context()`. -/
  inWorkflow : Bool := false

/-! ### What calls await -/

inductive Request where
  | projection (runId : String)
  | catchUp (runId : String) (throughOffset : Int)
  | readiness (runId : String) (requiredOffset : Int)
  | seen (fingerprint : String)
  | mark (fingerprint : String)
  | append (commit : ActionCommit)
  | latestRunOffset (runId : String)
  | load (runId : String)
  | decide (input : RecoveryInput)
  | writeIntent (record : TurnIntentRecord)
  | writeOutcome (outcome : RecoveryOutcome)
  /-- The end of a turn that was started. -/
  | turn (index : Nat)

abbrev Request.Answer : Request → Type
  | .projection _ | .catchUp _ _ => RunProjection
  | .readiness _ _ | .seen _ => Bool
  | .latestRunOffset _ => Int
  | .load _ => List RuntimeEvent
  | .decide _ => RecoveryDecision
  | .turn _ => TurnResult
  | .mark _ | .append _ | .writeIntent _ | .writeOutcome _ => Unit

def Request.ofTurn : Request → Bool
  | .turn _ => true
  | _ => false

/-- A signal in hand, and those `run` replays after it. -/
structure Delivery where
  runId : String
  signal : ActorSignal
  rest : List ActorSignal

/-- A commit in `process_action_commit`, with the offset of its last event; `delivery`
says which signal it was made for. -/
structure Processing where
  commit : ActionCommit
  offset : Int
  delivery : Option Delivery

/-- A commit whose action is being carried out. -/
structure Acting where
  processing : Processing
  projection : RunProjection
  action : Action

/-- The two places a recovery is decided: after a turn that asks for it, and in the
handler around everything, after an `Exception`. -/
inductive Round where
  | pending (result : TurnResult)
  | failed (err : PyError)

inductive Stage where
  | starting (input : RunInput)
  | pinning (input : RunInput) (commit : ActionCommit)
  | signalled (d : Delivery)
  | recording (d : Delivery) (commit : ActionCommit)
  | catchingUp (p : Processing)
  | readying (p : Processing) (projection : RunProjection)
  | lookingUp (p : Processing) (projection : RunProjection)
  | marking (p : Processing) (projection : RunProjection)
  | turning (a : Acting) (index : Nat)
  | intending (a : Acting) (result : TurnResult) (record : TurnIntentRecord)
  | recordingOutcome (a : Acting) (result : TurnResult) (commit : ActionCommit)
  | gateBefore (a : Acting) (round : Round)
  | deciding (a : Acting) (round : Round) (before : Int)
  | gateAfter (a : Acting) (round : Round) (before : Int) (decision : RecoveryDecision)
  | recovering (a : Acting) (round : Round) (decision : RecoveryDecision) (commit : ActionCommit)
  | settling (a : Acting) (round : Round) (outcome : RecoveryOutcome)
  /-- Another writer of the log. -/
  | writing (commit : ActionCommit)
  /-- A reconciliation sweep, at its next run. -/
  | sweeping (runId : String) (rest : List String)

/-- `f"{run_id}:{commit_id}:{commit_offset}"`. -/
def Processing.fingerprint (p : Processing) : String :=
  p.commit.runId ++ ":" ++ p.commit.commitId ++ ":" ++ toString p.offset

def Round.reasonCode : Round → String
  | .pending result =>
    match result.recoveryInput with
    | some envelope => envelope.failureCode
    | none => "effect_unknown"
  | .failed err => Text.lower err.kind.name

/-- Where the recovery events are expected: after the commit's own last event, and after
the turn's outcome if that was recorded. -/
def Round.offset (round : Round) (p : Processing) : Int :=
  match round with
  | .pending _ => p.offset + 2
  | .failed _ => p.offset + 1

def Acting.recoveryInput (a : Acting) (round : Round) : RecoveryInput :=
  { runId := a.processing.commit.runId
    failedActionId := some a.action.actionId
    failedEffectClass := some a.action.effectClass.text
    reasonCode := round.reasonCode
    lifecycleState := a.projection.lifecycleState
    projection := a.projection }

def Stage.request : Stage → Request
  | .starting input => .projection input.runId
  | .pinning _ commit => .append commit
  | .signalled d => .projection d.runId
  | .recording _ commit => .append commit
  | .catchingUp p => .catchUp p.commit.runId p.offset
  | .readying p _ => .readiness p.commit.runId p.offset
  | .lookingUp p _ => .seen p.fingerprint
  | .marking p _ => .mark p.fingerprint
  | .turning _ index => .turn index
  | .intending _ _ record => .writeIntent record
  | .recordingOutcome _ _ commit => .append commit
  | .gateBefore a _ => .latestRunOffset a.processing.commit.runId
  | .deciding a round _ => .decide (a.recoveryInput round)
  | .gateAfter a _ _ _ => .latestRunOffset a.processing.commit.runId
  | .recovering _ _ _ commit => .append commit
  | .settling _ _ outcome => .writeOutcome outcome
  | .writing commit => .append commit
  | .sweeping runId _ => .load runId

/-- What a stage is answered: a value, or what the service raised. -/
abbrev Stage.Reply (st : Stage) : Type := Except Raised st.request.Answer

/-- What is seen of the calls. -/
inductive Note where
  /-- A service answered. -/
  | served (st : Stage) (reply : st.Reply)
  /-- The peer check turned a signal away. -/
  | rejected (s : ActorSignal)
  /-- A signal's token had been seen. -/
  | suppressed (s : ActorSignal)
  /-- A signal was handled to the end. -/
  | handled (s : ActorSignal)
  | continuedAsNew (input : RunInput)
  | reconciled (result : ReconciliationResult)

/-! ### Continuing a call -/

/-- What is left of a call. -/
inductive Next where
  | await (st : Stage)
  | end (r : Except Raised Unit)

/-- What a call can touch between two awaits. -/
structure Process (σ : Type) where
  actor : Actor
  engine : System σ

structure Resumed (σ : Type) where
  process : Process σ
  next : Next
  notes : List Note := []

/-- A signal from a peer is taken from an active child run only. -/
def Actor.authorizes (a : Actor) (s : ActorSignal) : Bool :=
  match s.fromPeerRunId with
  | none => true
  | some peer =>
    match a.lastProjection with
    | none => false
    | some projection => decide (peer ∈ projection.activeChildRuns)

def Actor.hasSeen (a : Actor) (s : ActorSignal) : Bool :=
  match s.token? with
  | none => false
  | some token => decide (token ∈ a.seenSignalTokens)

def notStarted : Raised := .exception ⟨.runtimeError, "RunActorWorkflow.run must be called first."⟩

section
variable {σ : Type} (K : Kernel σ)

/-- `_handle_signal` on one signal after the other, up to the first await. -/
def handleSignals (p : Process σ) : List ActorSignal → Resumed σ
  | [] => { process := p, next := .end (.ok ()) }
  | s :: rest =>
    match p.actor.runId? with
    | none => { process := p, next := .end (.error notStarted) }
    | some runId =>
      if ¬ p.actor.authorizes s then
        let r := handleSignals p rest
        { r with notes := .rejected s :: r.notes }
      else if p.actor.hasSeen s then
        let r := handleSignals p rest
        { r with notes := .suppressed s :: r.notes }
      else
        { process := { p with actor := { p.actor with signalSequence := p.actor.signalSequence + 1 } }
          next := .await (.signalled ⟨runId, s, rest⟩) }

/-- `run` replays what was buffered before it started and what was carried over. -/
def replayPending (p : Process σ) (input : RunInput) : Resumed σ :=
  handleSignals { p with actor := { p.actor with pendingSignals := [] } }
    (p.actor.pendingSignals ++ input.pendingSignals.getD [])

def processActionCommit (commit : ActionCommit) (delivery : Option Delivery) : Next :=
  match assertNoDerivedDiagnosticAuthorityInput commit with
  | .error r => .end (.error r)
  | .ok () =>
    match lastCommitOffset commit with
    | .error r => .end (.error r)
    | .ok offset => .await (.catchingUp ⟨commit, offset, delivery⟩)

def Actor.shouldContinueAsNew (a : Actor) (threshold : Int) (m : Moment) : Bool :=
  m.inWorkflow && !decide ((a.historyEventCount : Int) < threshold) &&
    (match a.lastProjection with
    | none => false
    | some projection =>
      a.pendingSignals.isEmpty && !RunLifecycleState.terminal projection.lifecycleState)

/-- What the next instance is started with. -/
def Actor.carried (a : Actor) (runId : String) : RunInput :=
  { runId := runId
    sessionId := a.sessionId
    parentRunId := a.parentRunId
    pendingSignals := if a.pendingSignals.isEmpty then none else some a.pendingSignals }

/-- What `workflow.continue_as_new` raises; it is no `Exception`. -/
def continueAsNewError : Raised := .exit "ContinueAsNewError"

/-- `process_action_commit` returned: a signal's round is counted, and the instance may
continue as new. -/
def processed (m : Moment) (p : Process σ) (delivery : Option Delivery) : Resumed σ :=
  match delivery with
  | none => { process := p, next := .end (.ok ()) }
  | some d =>
    let a := { p.actor with historyEventCount := p.actor.historyEventCount + 1 }
    if a.shouldContinueAsNew K.historyEventThreshold m then
      { process := { p with actor := { a with continuedAs := some (a.carried d.runId) } }
        next := .end (.error continueAsNewError)
        notes := [.continuedAsNew (a.carried d.runId)] }
    else
      let r := handleSignals { p with actor := a } d.rest
      { r with notes := .handled d.signal :: r.notes }

/-- `mark_unknown_effect` on the key of a turn whose outcome could not be recorded; an
`Exception` of the store is dropped. -/
def rollBack (p : Process σ) (result : TurnResult) : Process σ :=
  match result.dispatchDedupeKey with
  | none => p
  | some key =>
    { p with engine := { p.engine with
        store := (K.outbox.port.markUnknownEffect key).suppress.after p.engine.store } }

/-- Something raised inside the guarded part: an `Exception` goes to the handler. -/
def actionFailed (p : Process σ) (a : Acting) : Raised → Resumed σ
  | .exception e => { process := p, next := .await (.gateBefore a (.failed e)) }
  | .exit name => { process := p, next := .end (.error (.exit name)) }

/-- Something raised in a recovery round; the handler's own round is not guarded. -/
def roundFailed (p : Process σ) (a : Acting) : Round → Raised → Resumed σ
  | .pending _, r => actionFailed p a r
  | .failed _, r => { process := p, next := .end (.error r) }

/-- A recovery round is over; the handler raises again what it caught. -/
def roundDone (m : Moment) (p : Process σ) (a : Acting) : Round → Resumed σ
  | .pending _ => processed K m p a.processing.delivery
  | .failed err => { process := p, next := .end (.error (.exception err)) }

def recordOutcome (m : Moment) (p : Process σ) (a : Acting) (result : TurnResult) : Resumed σ :=
  { process := p
    next := .await (.recordingOutcome a result (turnOutcomeCommit a.processing.commit.runId
      (a.processing.offset + 1) result a.action.actionId m.now)) }

/-- `_append_turn_outcome_commit` writes the turn's intent first, where there is a log
for it. -/
def turnReturned (m : Moment) (p : Process σ) (a : Acting) (result : TurnResult) : Resumed σ :=
  match result.intentCommitRef with
  | none => recordOutcome m p a result
  | some ref =>
    if K.hasTurnIntentLog then
      { process := p
        next := .await (.intending a result
          (turnIntent a.processing.commit.runId ref result m.now)) }
    else recordOutcome m p a result

def startTurn (p : Process σ) (a : Acting) : Resumed σ :=
  let input : TurnInput :=
    { runId := a.processing.commit.runId
      throughOffset := a.processing.offset
      basedOnOffset := a.processing.offset
      triggerType := .signal }
  { process := { p with engine := { p.engine with
      turns := p.engine.turns ++ [Turn.start K.engine input (some a.action)] } }
    next := .await (.turning a p.engine.turns.length) }

/-- A sweep goes on to its next run. -/
def sweepOn (p : Process σ) : List String → Resumed σ
  | [] => { process := p, next := .end (.ok ()) }
  | runId :: rest => { process := p, next := .await (.sweeping runId rest) }

/-- The pass over one run; the `Exception` of a failed load is reported, not raised. -/
def sweepRun (p : Process σ) (runId : String) (rest : List String)
    (loaded : Except PyError (List RuntimeEvent)) : Resumed σ :=
  match reconcileLoaded K.outbox runId loaded p.engine.store with
  | .ok result store =>
    let r := sweepOn { p with engine := { p.engine with store := store } } rest
    { r with notes := .reconciled result :: r.notes }
  | .error e store =>
    { process := { p with engine := { p.engine with store := store } }
      next := .end (.error (.exception e)) }

/-- Continue a call with what its service answered. -/
def resume (m : Moment) (p : Process σ) : (st : Stage) → st.Reply → Resumed σ
  | .starting input, .ok projection =>
    let p := { p with actor := { p.actor with lastProjection := some projection } }
    match input.policyVersions with
    | none => replayPending p input
    | some versions =>
      { process := p, next := .await (.pinning input (policyPinnedCommit input.runId versions m.now)) }
  | .pinning input _, .ok () => replayPending p input
  | .signalled d, .ok projection =>
    { process := p
      next := .await (.recording d (signalCommit d.runId d.signal p.actor.signalSequence
        (projection.projectedOffset + 1) m.now)) }
  | .recording d commit, .ok () =>
    { process := { p with actor := { p.actor with
        seenSignalTokens := d.signal.token?.toList ++ p.actor.seenSignalTokens } }
      next := processActionCommit commit (some d) }
  | .catchingUp q, .ok projection =>
    { process := { p with actor := { p.actor with lastProjection := some projection } }
      next := .await (.readying q projection) }
  | .readying q projection, .ok true => { process := p, next := .await (.lookingUp q projection) }
  | .readying q _, .ok false => processed K m p q.delivery
  | .lookingUp q _, .ok true => processed K m p q.delivery
  | .lookingUp q projection, .ok false => { process := p, next := .await (.marking q projection) }
  | .marking q projection, .ok () =>
    match q.commit.action with
    | none => processed K m p q.delivery
    | some action => startTurn K p ⟨q, projection, action⟩
  | .turning a _, .ok result => turnReturned K m p a result
  | .turning a _, .error r => actionFailed p a r
  | .intending a result _, .ok () => recordOutcome m p a result
  | .intending a result _, .error (.exception e) =>
    actionFailed (rollBack K p result) a (.exception e)
  | .recordingOutcome a result _, .ok () =>
    match assertSingleDispatchAttemptInTurn result with
    | .error e => actionFailed p a (.exception e)
    | .ok () =>
      if result.outcomeKind = .recoveryPending then
        { process := p, next := .await (.gateBefore a (.pending result)) }
      else processed K m p a.processing.delivery
  | .recordingOutcome a result _, .error (.exception e) =>
    actionFailed (rollBack K p result) a (.exception e)
  | .gateBefore a round, .ok before => { process := p, next := .await (.deciding a round before) }
  | .gateBefore a round, .error r => roundFailed p a round r
  | .deciding a round before, .ok decision =>
    { process := p, next := .await (.gateAfter a round before decision) }
  | .deciding a round _, .error r => roundFailed p a round r
  | .gateAfter a round before decision, .ok after =>
    match assertRecoveryGateIsReadOnly before after with
    | .error e => roundFailed p a round (.exception e)
    | .ok () =>
      match assertRecoveryEventTypeAllowed (recoveryEventType decision.mode) with
      | .error e => roundFailed p a round (.exception e)
      | .ok () =>
        { process := p
          next := .await (.recovering a round decision (recoveryCommit a.processing.commit.runId
            (round.offset a.processing) decision a.action.actionId m.now)) }
  | .gateAfter a round _ _, .error r => roundFailed p a round r
  | .recovering a round decision _, .ok () =>
    if K.hasRecoveryOutcomes then
      { process := p
        next := .await (.settling a round (recoveryOutcome a.processing.commit.runId
          (round.offset a.processing) decision a.action.actionId m.now)) }
    else roundDone K m p a round
  | .recovering a round _ _, .error r => roundFailed p a round r
  | .settling a round _, .ok () => roundDone K m p a round
  | .settling a round _, .error r => roundFailed p a round r
  | .writing _, .ok () => { process := p, next := .end (.ok ()) }
  | .sweeping runId rest, .ok events => sweepRun K p runId rest (.ok events)
  | .sweeping runId rest, .error (.exception e) => sweepRun K p runId rest (.error e)
  -- Nothing catches the rest.
  | _, .error r => { process := p, next := .end (.error r) }

/-! ### The services -/

/-- The event log, the projection service and the decision deduper. -/
structure Services where
  journal : Journal
  projections : Dict String RunProjection := Dict.empty
  fingerprints : List String := []

/-- How the services behave: one may fail, and then has no effect. -/
structure Behaviour where
  failure : Option Raised := none
  decision : RecoveryDecision := { mode := .abort, reason := "" }

namespace Services

def cached (sv : Services) (runId : String) : RunProjection :=
  (sv.projections.get? runId).getD (defaultProjection runId)

/-- A call of the projection service on a run. -/
def project (sv : Services) (runId : String) (through : Option Int) :
    Except PyError (RunProjection × Services) :=
  match replayUnseen {} through (sv.cached runId)
      (sv.journal.load runId (sv.cached runId).projectedOffset) with
  | .ok projection =>
    .ok (projection, { sv with projections := sv.projections.set runId projection })
  | .error e => .error e

/-- `_latest_run_offset`, from the events loaded. -/
def latestRunOffset : List RuntimeEvent → Int
  | [] => 0
  | event :: rest => rest.foldl (fun m e => max m e.commitOffset) event.commitOffset

/-- What a service does and answers when it does not fail; a turn that has not ended
gives no answer yet. -/
def perform (sv : Services) (b : Behaviour) (turns : List Turn) :
    (q : Request) → Option (Except Raised q.Answer × Services)
  | .projection runId =>
    match sv.project runId none with
    | .ok (projection, sv) => some (.ok projection, sv)
    | .error e => some (.error (.exception e), sv)
  | .catchUp runId throughOffset =>
    match sv.project runId (some throughOffset) with
    | .ok (projection, sv) => some (.ok projection, sv)
    | .error e => some (.error (.exception e), sv)
  | .readiness runId requiredOffset =>
    match sv.project runId none with
    | .ok (projection, sv) => some (.ok (decide (projection.projectedOffset ≥ requiredOffset)), sv)
    | .error e => some (.error (.exception e), sv)
  | .seen fingerprint => some (.ok (decide (fingerprint ∈ sv.fingerprints)), sv)
  | .mark fingerprint => some (.ok (), { sv with fingerprints := fingerprint :: sv.fingerprints })
  | .append commit =>
    if commit.events.isEmpty then some (.error (.exception emptyCommit), sv)
    else some (.ok (), { sv with journal := sv.journal.append commit })
  | .latestRunOffset runId => some (.ok (latestRunOffset (sv.journal.load runId 0)), sv)
  | .load runId => some (.ok (sv.journal.load runId 0), sv)
  | .decide _ => some (.ok b.decision, sv)
  | .writeIntent _ => some (.ok (), sv)
  | .writeOutcome _ => some (.ok (), sv)
  | .turn index =>
    match turns[index]? with
    | some { progress := .finished (.returned result), .. } => some (.ok result, sv)
    | some { progress := .finished (.raised r), .. } => some (.error r, sv)
    | _ => none

/-- Any service may fail, except that a turn ends by itself. -/
def answer (sv : Services) (b : Behaviour) (turns : List Turn) (q : Request) :
    Option (Except Raised q.Answer × Services) :=
  if q.ofTurn then sv.perform b turns q
  else
    match b.failure with
    | none => sv.perform b turns q
    | some r => some (.error r, sv)

end Services

/-! ### The world -/

inductive Status where
  | awaiting (st : Stage)
  | answered (st : Stage) (reply : st.Reply)
  | ended (r : Except Raised Unit)

/-- The stage a call stands at. -/
def Status.stage? : Status → Option Stage
  | .awaiting st | .answered st _ => some st
  | .ended _ => none

/-- What a call ended with. -/
def Status.ended? : Status → Option (Except Raised Unit)
  | .ended r => some r
  | _ => none

theorem Status.ended_of_ended? {x : Option Status} {r : Except Raised Unit}
    (h : x.bind Status.ended? = some r) : x = some (.ended r) := by
  obtain ⟨y, rfl, hy⟩ := Option.bind_eq_some_iff.mp h
  cases y <;> cases hy
  rfl

def Next.status : Next → Status
  | .await st => .awaiting st
  | .end r => .ended r

structure World (σ : Type) where
  services : Services
  process : Process σ
  calls : List Status
  trace : List (Tagged Nat Note)

/-- A call that is made. -/
inductive Entry where
  | run (input : RunInput)
  | signal (s : ActorSignal)
  | processActionCommit (commit : ActionCommit)
  | write (commit : ActionCommit)
  | reconcileOnce (runIds : List String)

inductive Label where
  | call (entry : Entry)
  | serve (i : Nat) (b : Behaviour)
  | resume (i : Nat) (m : Moment)
  /-- `run_turn`, called by someone else. -/
  | runTurn (c : TurnCall)
  | turn (l : Turns.Label)
  /-- The instance that continued as new is replaced. -/
  | restart

/-- `run` sets the instance up before it awaits anything. -/
def Actor.started (a : Actor) (input : RunInput) : Actor :=
  { a with
    runId := some input.runId
    sessionId := input.sessionId
    parentRunId := input.parentRunId
    policyVersions := input.policyVersions
    activeStageId := input.initialStageId }

/-- A call up to its first await. An instance is run once. -/
def enter (p : Process σ) : Entry → Option (Resumed σ)
  | .run input =>
    match p.actor.runId with
    | some _ => none
    | none => some
      { process := { p with actor := p.actor.started input }, next := .await (.starting input) }
  | .signal s =>
    match p.actor.runId? with
    | none => some
      { process := { p with actor := { p.actor with
          pendingSignals := p.actor.pendingSignals ++ [s] } }
        next := .end (.ok ()) }
    | some _ => some (handleSignals p [s])
  | .processActionCommit commit =>
    some { process := p, next := processActionCommit commit none }
  | .write commit => some { process := p, next := .await (.writing commit) }
  | .reconcileOnce runIds => some (sweepOn p runIds)

namespace World

/-- The call goes on as computed. -/
def follow (w : World σ) (i : Nat) (r : Resumed σ) : World σ :=
  { w with
    process := r.process
    calls := w.calls.set i r.next.status
    trace := w.trace ++ tagged i r.notes }

/-- A call is made. -/
def launch (w : World σ) (r : Resumed σ) : World σ :=
  { w with
    process := r.process
    calls := w.calls ++ [r.next.status]
    trace := w.trace ++ tagged w.calls.length r.notes }

/-- The calls of the old instance go with it. -/
def abandoned : Status → Status
  | .awaiting (.writing commit) => .awaiting (.writing commit)
  | .awaiting (.sweeping runId rest) => .awaiting (.sweeping runId rest)
  | .answered (.writing commit) reply => .answered (.writing commit) reply
  | .answered (.sweeping runId rest) reply => .answered (.sweeping runId rest) reply
  | .ended r => .ended r
  | _ => .ended (.error (.exit "CancelledError"))

def step (w : World σ) : Label → World σ
  | .call entry =>
    match enter w.process entry with
    | none => w
    | some r => w.launch r
  | .serve i b =>
    match w.calls[i]? with
    | some (.awaiting st) =>
      match w.services.answer b w.process.engine.turns st.request with
      | some (reply, services) =>
        { w with
          services := services
          calls := w.calls.set i (.answered st reply)
          trace := w.trace ++ tagged i [.served st reply] }
      | none => w
    | _ => w
  | .resume i m =>
    match w.calls[i]? with
    | some (.answered st reply) => w.follow i (resume K m w.process st reply)
    | _ => w
  | .runTurn c =>
    { w with process := { w.process with engine := { w.process.engine with
        turns := w.process.engine.turns ++ [Turn.start c.engine c.input c.action] } } }
  | .turn l =>
    { w with process := { w.process with
        engine := w.process.engine.step K.outbox.port K.digest l } }
  | .restart =>
    match w.process.actor.continuedAs with
    | none => w
    | some input =>
      ({ w with
        calls := w.calls.map abandoned
        process := { w.process with actor := ({} : Actor).started input } } : World σ).launch
        { process := { w.process with actor := ({} : Actor).started input }
          next := .await (.starting input) }

/-- A world before anything was called: a new instance over some log and some store. -/
def fresh (journal : Journal) (store : σ) : World σ :=
  { services := { journal := journal }
    process := { actor := {}, engine := { store := store, turns := [], trace := [] } }
    calls := []
    trace := [] }

end World
end

/-! ### A world to look at -/

namespace Sample

/-- A workflow over the in-memory store. -/
def kernel : Kernel InMemoryDedupeStore :=
  { outbox := InMemoryDedupeStore.outboxStore, digest := Turns.Sample.digest }

def world : World InMemoryDedupeStore := World.fresh Journal.empty Dict.empty

/-- A call that gets an answer and goes on, a number of times. -/
def awaits (i n : Nat) : List Label := (List.replicate n [.serve i {}, .resume i {}]).flatten

/-- A call whose service fails. -/
def failing (i : Nat) : List Label :=
  [.serve i { failure := some (.exception ⟨.runtimeError, "down"⟩) }, .resume i {}]

/-- The ports of a turn whose snapshot input is declared. -/
def ports (answer : Awaited ExecuteResult) : Ports :=
  { Turns.Sample.ports answer with
    resolve := fun input _ => .ok
      { runId := input.runId
        basedOnOffset := input.basedOnOffset
        tenantPolicyRef := "policy:default"
        permissionMode := "strict" } }

def unacknowledged : Awaited ExecuteResult := .returned { items := [("acknowledged", .bool false)] }

/-- A commit of one event and an action. -/
def actionCommit : ActionCommit :=
  { commitOf "run" "run.ready" with
    events := [factEvent "run" "run.ready" 1 none]
    action := some (Turns.Sample.action "run" "act") }

/-- The commit is appended by its writer. -/
def written : List Label := .call (.write actionCommit) :: awaits 0 1

/-- Then, as call 1, it is processed up to the end of its turn. -/
def turned (answer : Awaited ExecuteResult) : List Label :=
  awaits 1 4 ++ List.replicate 8 (.turn ⟨0, ports answer⟩) ++ awaits 1 1

/-- The sample commit processed, after it was written. -/
def processing (K : Kernel InMemoryDedupeStore) (labels : List Label) : World InMemoryDedupeStore :=
  run (World.step K) (run (World.step K) world written)
    (.call (.processActionCommit actionCommit) :: labels)

end Sample
end AgentKernel.Workflow
