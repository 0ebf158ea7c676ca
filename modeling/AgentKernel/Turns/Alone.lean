import AgentKernel.Turns.Returned

/-! One turn alone on the event loop.

`System` runs a turn from one await to the next, and other turns may run in between; `runTurn`
is the loop over the phases as if it were one call. The two are the same turn: resumed without
anybody in between, the coroutine ends within nine steps, and as the loop ends, on the same store
(`turn_alone`). After each phase the coroutine stands where the phase context says (`Stands`),
which carries the argument from one phase to the next. -/
namespace AgentKernel.Turns.Phases
open Lib Dedupe IdempotencyKeyPolicy

/-! ### Where a turn is resumed -/

/-- The points a turn is resumed at. It passes each of them at most once. -/
inductive Point where
  | noopOrReasoning
  | reasoning
  | snapshot
  | admission
  | admitting
  | dispatchPolicy
  | dedupe
  | execute
  | executing
  | finished
  deriving DecidableEq, Repr

def point : Progress → Point
  | .noopOrReasoning _ => .noopOrReasoning
  | .reasoning _ => .reasoning
  | .snapshot _ => .snapshot
  | .admission _ => .admission
  | .admitting _ => .admitting
  | .dispatchPolicy .. => .dispatchPolicy
  | .dedupe .. => .dedupe
  | .execute _ => .execute
  | .executing .. => .executing
  | .finished _ => .finished

/-- The phases that are still to come. -/
def remaining : Progress → List TurnPhase
  | .noopOrReasoning _ => turnPhases
  | .snapshot _ => [.snapshot, .admission, .dispatchPolicy, .dedupe, .execute]
  | .admission _ => [.admission, .dispatchPolicy, .dedupe, .execute]
  | .dispatchPolicy .. => [.dispatchPolicy, .dedupe, .execute]
  | .dedupe .. => [.dedupe, .execute]
  | .execute _ => [.execute]
  | _ => []

/-- The steps a phase takes at most. -/
def TurnPhase.steps : TurnPhase → Nat
  | .noopOrReasoning | .admission | .execute => 2
  | .snapshot | .dispatchPolicy | .dedupe => 1

/-- What a phase sees of ports that behave in their own way at every point. -/
def phasePorts (ports : Point → Ports) : TurnPhase → Ports
  | .noopOrReasoning => { ports .noopOrReasoning with runOnce := (ports .reasoning).runOnce }
  | .snapshot => ports .snapshot
  | .admission => { ports .admission with evaluateAdmission := (ports .admitting).evaluateAdmission }
  | .dispatchPolicy => ports .dispatchPolicy
  | .dedupe => ports .dedupe
  | .execute =>
    { ports .execute with
      execute := (ports .executing).execute
      utcNowIso := (ports .executing).utcNowIso }

/-- A port of an engine without a timeout is awaited for as long as it takes. -/
structure Awaits (engine : TurnEngine) (ports : Point → Ports) : Prop where
  runOnce : engine.phaseTimeoutMs = none → ∀ request, (ports .reasoning).runOnce request ≠ .timedOut
  admission : engine.phaseTimeoutMs = none →
    ∀ action snapshot, (ports .admitting).evaluateAdmission action snapshot ≠ .timedOut
  execute : engine.phaseTimeoutMs = none → ∀ call, (ports .executing).execute call ≠ .timedOut

/-- What the caller of `run_turn` sees raised. -/
def Interrupt.toRaised : Interrupt → Raised
  | .raised r => r
  | .deadline => .exception timeoutError

/-- What the caller of `run_turn` sees. -/
def LoopEnd.outcome : LoopEnd → TurnOutcome
  | .returned result => .returned result
  | .exhausted => .raised (.exception ⟨.runtimeError,
      "TurnEngine phases completed without setting ctx.result."⟩)

section
variable {σ : Type} (S : DedupeStorePort σ) (H : Digest) (ports : Point → Ports)

/-- Resume the turn where it stands. -/
def resume (x : Turn × σ) : Turn × σ :=
  (x.1.after (x.1.move S H (ports (point x.1.progress)) x.2).1,
    (x.1.move S H (ports (point x.1.progress)) x.2).2)

/-- The context once the snapshot of a candidate is built. -/
def candidateContext (c : Candidate) (events : List TurnStateEvent) : TurnPhaseContext :=
  { input := c.input
    action := some c.action
    emittedEvents := events
    snapshot := some c.snapshot
    turnIdentity := some (c.identity H) }

/-- The context of a turn that passed the dedupe phase. -/
def dispatchContext (d : Dispatch) (events : List TurnStateEvent) : TurnPhaseContext :=
  { candidateContext H d.candidate events with
    admissionResult := some d.admission
    dispatchPolicy := some d.policy
    envelope := some d.envelope
    dedupeAvailable := d.dedupeAvailable
    dedupeOutcome := if d.dedupeAvailable then "accepted" else "degraded"
    legacyAliasKey := d.legacyAliasKey }

/-- The context the phases have when the turn stands between two of them, or has returned. -/
def Stands (t : Turn) (ctx : TurnPhaseContext) : Prop :=
  match t.progress with
  | .noopOrReasoning action => ctx = { input := t.input, action := action, emittedEvents := t.events }
  | .snapshot action => ctx = { input := t.input, action := some action, emittedEvents := t.events }
  | .admission c => ctx = candidateContext H c t.events
  | .dispatchPolicy c admission =>
    ctx = { candidateContext H c t.events with admissionResult := some admission }
  | .dedupe c admission policy =>
    ctx =
      { candidateContext H c t.events with
        admissionResult := some admission
        dispatchPolicy := some policy }
  | .execute d => ctx = dispatchContext H d t.events
  | .finished (.returned result) => ctx.result = some result
  | _ => False

/-- How the turn stands after a phase that ended as given. -/
def Left (rest : List TurnPhase) (t : Turn) : EStateM.Result Interrupt (World σ) TurnPhaseContext → Prop
  | .ok ctx _ => Stands H t ctx ∧ (ctx.result = none → remaining t.progress = rest)
  | .error i _ => t.progress = .finished (.raised i.toRaised)

/-- The store a computation leaves. -/
def storeAfter {α : Type} : EStateM.Result Interrupt (World σ) α → σ
  | .ok _ w => w.store
  | .error _ w => w.store

/-- The turn does in some steps, at most so many, what a phase does. -/
def Tracks (steps : Nat) (rest : List TurnPhase) (t : Turn) (s : σ)
    (r : EStateM.Result Interrupt (World σ) TurnPhaseContext) : Prop :=
  ∃ k ≤ steps, ∃ t', (resume S H ports)^[k] (t, s) = (t', storeAfter r) ∧ t'.engine = t.engine ∧
    Left H rest t' r

variable {S H ports}

theorem Tracks.one {rest : List TurnPhase} {t : Turn} {s : σ}
    {r : EStateM.Result Interrupt (World σ) TurnPhaseContext} {m : Move} {steps : Nat}
    (hsteps : 1 ≤ steps) (hmove : t.move S H (ports (point t.progress)) s = (m, storeAfter r))
    (h : Left H rest (t.after m) r) : Tracks S H ports steps rest t s r := by
  refine ⟨1, hsteps, t.after m, ?_, rfl, h⟩
  rw [Function.iterate_one, resume, hmove]

/-- A step, and then what the turn does from where it gets to. -/
theorem Tracks.two {rest : List TurnPhase} {t : Turn} {s s' : σ}
    {r : EStateM.Result Interrupt (World σ) TurnPhaseContext} {m : Move} {steps : Nat}
    (hmove : t.move S H (ports (point t.progress)) s = (m, s'))
    (h : Tracks S H ports steps rest (t.after m) s' r) : Tracks S H ports (steps + 1) rest t s r := by
  obtain ⟨k, hk, t', hrun, hengine, hafter⟩ := h
  refine ⟨k + 1, Nat.add_le_add_right hk 1, t', ?_, hengine, hafter⟩
  rw [Function.iterate_succ_apply, resume, hmove]
  exact hrun

theorem Turn.move_pure {t : Turn} {p : Ports} {m : Move} {s : σ} (h : advance S H t p = pure m) :
    t.move S H p s = (m, s) := by
  rw [Turn.move, h]
  rfl

theorem timedOut_of_timeout {t : Turn} {seen : List Happening} (h : t.engine.phaseTimeoutMs ≠ none) :
    timedOut t seen = (Move.raise t.events (.exception timeoutError)).observed seen := by
  unfold timedOut
  split
  · rfl
  · next hnone => exact absurd hnone h

/-- An engine that is out of time never lets the first phase begin. -/
theorem outOfTime_tracks {t : Turn} {p : TurnPhase} {rest : List TurnPhase} {action : Option Action}
    {ctx : TurnPhaseContext} {w : World σ} {q : TurnPhase → Ports} (hp : t.progress = .noopOrReasoning action)
    (htime : t.engine.outOfTime = true) :
    Tracks S H ports 2 rest t w.store (waitFor S H t.engine q p ctx w) := by
  have hr : waitFor S H t.engine q p ctx w = .error .deadline w := by
    rw [waitFor, if_pos htime]
    rfl
  have htimeout : t.engine.phaseTimeoutMs ≠ none := by
    intro hnone
    rw [TurnEngine.outOfTime, hnone] at htime
    cases htime
  rw [hr]
  refine Tracks.one (m := timedOut t []) (by decide) ?_ ?_
  · apply Turn.move_pure
    rw [advance, hp]
    simp only [htime, if_true]
  · show (timedOut t []).progress = _
    rw [timedOut_of_timeout htimeout]
    rfl

/-- The phases after the first. -/
def afterReasoning : List TurnPhase := [.snapshot, .admission, .dispatchPolicy, .dedupe, .execute]

/-- With time left a phase is what it does. -/
theorem waitFor_inTime {engine : TurnEngine} {q : TurnPhase → Ports} {p : TurnPhase}
    {ctx : TurnPhaseContext} {w : World σ} (htime : engine.outOfTime = false) :
    waitFor S H engine q p ctx w = phase S H engine q p ctx w := by
  rw [waitFor, htime, if_neg (by decide)]

theorem noActionFound_result (ctx : TurnPhaseContext) (more : List TurnStateEvent) :
    (noActionFound ctx more).result = some (noopResult ctx.input (ctx.emittedEvents ++ more)) := by
  simp only [noActionFound, TurnPhaseContext.conclude, TurnPhaseContext.emit, noActionResult, noopResult,
    List.append_assoc]

/-- What the first phase makes of the answer of the reasoning loop. -/
def reasoned (ctx : TurnPhaseContext) :
    EStateM.Result Interrupt (World σ) (List Action) → EStateM.Result Interrupt (World σ) TurnPhaseContext
  | .ok [] w => .ok (noActionFound ctx []) w
  | .ok (action :: _) w => .ok { ctx with action := some action } w
  | .error (.raised (.exception _)) w => .ok (noActionFound ctx [{ state := .reasoningFailed }]) w
  | .error i w => .error i w

theorem phaseNoopOrReasoning_loop {engine : TurnEngine} {q : Ports} {ctx : TurnPhaseContext} {w : World σ}
    (haction : ctx.action = none) (hloop : engine.hasReasoningLoop = true) :
    phaseNoopOrReasoning engine q ctx w =
      reasoned (ctx.emit [{ state := .reasoning }])
        (reason engine q (ctx.emit [{ state := .reasoning }]) w) := by
  simp only [phaseNoopOrReasoning, haction, hloop, not_true_eq_false, if_false, exceptException,
    Call.tryCatch_apply, Call.bind_apply]
  cases reason engine q (ctx.emit [{ state := .reasoning }]) w with
  | ok actions w' => cases actions <;> rfl
  | error i w' =>
    rcases i with (e | name) | _
    · rfl
    · rfl
    · rfl

/-- The snapshot the reasoning loop is given is asked for like this. -/
def loopSnapshotInput (engine : TurnEngine) (input : TurnInput) : CapabilitySnapshotInput :=
  { runId := input.runId
    basedOnOffset := input.basedOnOffset
    tenantPolicyRef := engine.defaults.tenantPolicyRef
    permissionMode := engine.defaults.permissionMode }

def loopRequest (engine : TurnEngine) (input : TurnInput) (snapshot : CapabilitySnapshot) : ReasoningRequest :=
  { runId := input.runId
    snapshot := snapshot
    history := input.history
    modelRef := engine.defaults.modelRef
    idempotencyKey := input.runId ++ ":" ++ toString input.basedOnOffset ++ ":reasoning" }

theorem reason_of_error {engine : TurnEngine} {q : Ports} {ctx : TurnPhaseContext} {w : World σ} {r : Raised}
    (hbuild : q.build (loopSnapshotInput engine ctx.input) = .error r) :
    reason engine q ctx w = .error (.raised r) w := by
  rw [reason, Call.bind_apply]
  rw [loopSnapshotInput] at hbuild
  rw [hbuild]
  rfl

theorem reason_of_ok {engine : TurnEngine} {q : Ports} {ctx : TurnPhaseContext} {w : World σ}
    {snapshot : CapabilitySnapshot} (hbuild : q.build (loopSnapshotInput engine ctx.input) = .ok snapshot) :
    reason engine q ctx w =
      awaitPort (q.runOnce (loopRequest engine ctx.input snapshot))
        { w with calls := w.calls ++ [.runOnce (loopRequest engine ctx.input snapshot)] } := by
  rw [reason, Call.bind_apply]
  rw [loopSnapshotInput] at hbuild
  rw [hbuild]
  rfl

/-- The turn awaits the reasoning loop. -/
theorem reasoning_tracks {engine : TurnEngine} {input : TurnInput} {events : List TurnStateEvent}
    {request : ReasoningRequest} (w : World σ) (hwait : Awaits engine ports) :
    Tracks S H ports 1 afterReasoning ⟨engine, input, events, .reasoning request⟩ w.store
      (reasoned { input := input, action := none, emittedEvents := events }
        (awaitPort ((ports .reasoning).runOnce request) w)) := by
  cases hanswer : (ports .reasoning).runOnce request with
  | returned actions =>
    have hmove : advance S H ⟨engine, input, events, .reasoning request⟩ (ports .reasoning) =
        pure (reasoningReturned ⟨engine, input, events, .reasoning request⟩ actions) := by
      simp only [advance, hanswer]
    cases actions with
    | nil =>
      exact Tracks.one (Nat.le_refl 1) (Turn.move_pure hmove)
        ⟨rfl, fun h => absurd h (Option.some_ne_none _)⟩
    | cons action rest => exact Tracks.one (Nat.le_refl 1) (Turn.move_pure hmove) ⟨rfl, fun _ => rfl⟩
  | raised r =>
    have hmove : advance S H ⟨engine, input, events, .reasoning request⟩ (ports .reasoning) =
        pure (reasoningFailed ⟨engine, input, events, .reasoning request⟩ r) := by
      simp only [advance, hanswer]
    cases r with
    | exception e =>
      exact Tracks.one (Nat.le_refl 1) (Turn.move_pure hmove)
        ⟨noActionFound_result _ _, fun h => absurd h (Option.some_ne_none _)⟩
    | exit name => exact Tracks.one (Nat.le_refl 1) (Turn.move_pure hmove) rfl
  | timedOut =>
    have htimeout : engine.phaseTimeoutMs ≠ none := fun h => hwait.runOnce h request hanswer
    have hmove : advance S H ⟨engine, input, events, .reasoning request⟩ (ports .reasoning) =
        pure ((Move.raise events (.exception timeoutError)).observed []) := by
      rw [← timedOut_of_timeout (t := ⟨engine, input, events, .reasoning request⟩) htimeout]
      simp only [advance, hanswer]
    exact Tracks.one (Nat.le_refl 1) (Turn.move_pure hmove) rfl

theorem noopOrReasoning_tracks {engine : TurnEngine} {input : TurnInput} {events : List TurnStateEvent}
    {action : Option Action} {w : World σ} (hwait : Awaits engine ports) :
    Tracks S H ports 2 afterReasoning ⟨engine, input, events, .noopOrReasoning action⟩ w.store
      (waitFor S H engine (phasePorts ports) .noopOrReasoning
        { input := input, action := action, emittedEvents := events } w) := by
  by_cases htime : engine.outOfTime = true
  · exact outOfTime_tracks rfl htime
  rw [waitFor_inTime (Bool.eq_false_iff.mpr htime), phase]
  cases action with
  | some action =>
    refine Tracks.one (m := { events := events, progress := .snapshot action }) (by decide) ?_
      ⟨rfl, fun _ => rfl⟩
    apply Turn.move_pure
    simp only [advance, htime, Turns.phaseNoopOrReasoning]
    rfl
  | none =>
    by_cases hloop : engine.hasReasoningLoop = true
    · rw [phaseNoopOrReasoning_loop rfl hloop]
      cases hbuild : (ports .noopOrReasoning).build (loopSnapshotInput engine input) with
      | error r =>
        have hmove : advance S H ⟨engine, input, events, .noopOrReasoning none⟩ (ports .noopOrReasoning) =
            pure (reasoningFailed
              ⟨engine, input, events ++ [{ state := .reasoning }], .noopOrReasoning none⟩ r) := by
          rw [loopSnapshotInput] at hbuild
          simp only [advance, htime, Turns.phaseNoopOrReasoning, hloop, hbuild]
          rfl
        rw [reason_of_error hbuild]
        cases r with
        | exception e =>
          exact Tracks.one (by decide) (Turn.move_pure hmove)
            ⟨noActionFound_result _ _, fun h => absurd h (Option.some_ne_none _)⟩
        | exit name => exact Tracks.one (by decide) (Turn.move_pure hmove) rfl
      | ok snapshot =>
        have hmove : advance S H ⟨engine, input, events, .noopOrReasoning none⟩ (ports .noopOrReasoning) =
            pure { events := events ++ [{ state := .reasoning }]
                   progress := .reasoning (loopRequest engine input snapshot) } := by
          rw [loopSnapshotInput] at hbuild
          simp only [advance, htime, Turns.phaseNoopOrReasoning, hloop, hbuild]
          rfl
        rw [reason_of_ok hbuild]
        exact Tracks.two (Turn.move_pure hmove)
          (reasoning_tracks
            { w with calls := w.calls ++ [.runOnce (loopRequest engine input snapshot)] } hwait)
    · have hr : phaseNoopOrReasoning engine (phasePorts ports .noopOrReasoning)
          { input := input, action := none, emittedEvents := events } w =
          .ok (noActionFound { input := input, action := none, emittedEvents := events } []) w := by
        simp only [phaseNoopOrReasoning, hloop]
        rfl
      rw [hr]
      refine Tracks.one (m := .return (noopResult input events) []) (by decide) ?_
        ⟨rfl, fun h => absurd h (Option.some_ne_none _)⟩
      apply Turn.move_pure
      simp only [advance, htime, Turns.phaseNoopOrReasoning, hloop]
      rfl

theorem snapshot_tracks {engine : TurnEngine} {input : TurnInput} {events : List TurnStateEvent}
    {action : Action} (w : World σ) :
    Tracks S H ports 1 [.admission, .dispatchPolicy, .dedupe, .execute]
      ⟨engine, input, events, .snapshot action⟩ w.store
      (phase S H engine (phasePorts ports) .snapshot
        { input := input, action := some action, emittedEvents := events } w) := by
  have hmove : advance S H ⟨engine, input, events, .snapshot action⟩ (ports .snapshot) =
      pure (Turns.phaseSnapshot H ⟨engine, input, events, .snapshot action⟩ (ports .snapshot) action) := rfl
  have hbuilt : Turns.buildSnapshot ⟨engine, input, events, .snapshot action⟩ (ports .snapshot) action =
      buildSnapshot engine (ports .snapshot) input action := rfl
  rw [Turns.phaseSnapshot, hbuilt] at hmove
  simp only [phase, phasePorts, phaseSnapshot, assertSome_some, pure_bind]
  cases hsnapshot : buildSnapshot engine (ports .snapshot) input action with
  | ok snapshot =>
    rw [hsnapshot] at hmove
    exact Tracks.one (Nat.le_refl 1) (Turn.move_pure hmove) ⟨rfl, fun _ => rfl⟩
  | error r =>
    rw [hsnapshot] at hmove
    cases r with
    | exit name => exact Tracks.one (Nat.le_refl 1) (Turn.move_pure hmove) rfl
    | exception e =>
      by_cases hvalue : e.kind.isValueError = true
      · simp only [hvalue, if_true] at hmove ⊢
        exact Tracks.one (Nat.le_refl 1) (Turn.move_pure hmove) ⟨rfl, fun h => absurd h (Option.some_ne_none _)⟩
      · simp only [hvalue] at hmove ⊢
        exact Tracks.one (Nat.le_refl 1) (Turn.move_pure hmove) rfl

/-- What the admission phase makes of the answer of the admission service. -/
def admissionDecided (ctx : TurnPhaseContext) (ti : TurnIdentity) :
    EStateM.Result Interrupt (World σ) AdmissionValue → EStateM.Result Interrupt (World σ) TurnPhaseContext
  | .error i w => .error i w
  | .ok admission w =>
    match isAdmitted admission with
    | .error r => .error (.raised r) w
    | .ok true =>
      .ok ({ ctx with admissionResult := some admission }.emit [{ state := .admissionChecked }]) w
    | .ok false =>
      .ok (({ ctx with admissionResult := some admission }.emit [{ state := .admissionChecked }]).conclude
        [{ state := .dispatchBlocked }] (blockedResult ti none)) w

theorem phaseAdmission_decided {engine : TurnEngine} {q : Ports} {c : Candidate}
    {events : List TurnStateEvent} {w : World σ} :
    phaseAdmission engine q (candidateContext H c events) w =
      admissionDecided (candidateContext H c events) (c.identity H)
        (evaluateAdmission engine q c.action c.snapshot w) := by
  simp only [phaseAdmission, candidateContext, assertSome_some, pure_bind]
  rw [Call.bind_apply]
  cases evaluateAdmission engine q c.action c.snapshot w with
  | error i w' => rfl
  | ok admission w' =>
    simp only [admissionDecided]
    rw [Call.bind_apply]
    cases isAdmitted admission with
    | error r => rfl
    | ok admitted => cases admitted <;> rfl

/-- The turn awaits the admission service. -/
theorem admitting_tracks {engine : TurnEngine} {input : TurnInput} {events : List TurnStateEvent}
    {c : Candidate} (w : World σ) (hwait : Awaits engine ports) :
    Tracks S H ports 1 [.dispatchPolicy, .dedupe, .execute] ⟨engine, input, events, .admitting c⟩ w.store
      (admissionDecided (candidateContext H c events) (c.identity H)
        (awaitPort ((ports .admitting).evaluateAdmission c.action c.snapshot) w)) := by
  cases hanswer : (ports .admitting).evaluateAdmission c.action c.snapshot with
  | timedOut =>
    have htimeout : engine.phaseTimeoutMs ≠ none := fun h => hwait.admission h _ _ hanswer
    have hmove : advance S H ⟨engine, input, events, .admitting c⟩ (ports .admitting) =
        pure ((Move.raise events (.exception timeoutError)).observed []) := by
      rw [← timedOut_of_timeout (t := ⟨engine, input, events, .admitting c⟩) htimeout]
      simp only [advance, hanswer]
    exact Tracks.one (Nat.le_refl 1) (Turn.move_pure hmove) rfl
  | raised r =>
    have hmove : advance S H ⟨engine, input, events, .admitting c⟩ (ports .admitting) =
        pure (.raise events r) := by
      simp only [advance, hanswer]
    exact Tracks.one (Nat.le_refl 1) (Turn.move_pure hmove) rfl
  | returned admission =>
    have hmove : advance S H ⟨engine, input, events, .admitting c⟩ (ports .admitting) =
        pure (admissionReturned H ⟨engine, input, events, .admitting c⟩ c admission) := by
      simp only [advance, hanswer]
    rw [admissionReturned] at hmove
    simp only [awaitPort, Call.pure_apply, admissionDecided]
    cases hadmitted : isAdmitted admission with
    | error r =>
      rw [hadmitted] at hmove
      exact Tracks.one (Nat.le_refl 1) (Turn.move_pure hmove) rfl
    | ok admitted =>
      rw [hadmitted] at hmove
      cases admitted with
      | true => exact Tracks.one (Nat.le_refl 1) (Turn.move_pure hmove) ⟨rfl, fun _ => rfl⟩
      | false =>
        refine Tracks.one (Nat.le_refl 1) (Turn.move_pure hmove) ⟨?_, fun h => absurd h (Option.some_ne_none _)⟩
        show _ = some _
        simp [candidateContext, TurnPhaseContext.conclude, TurnPhaseContext.emit, blockedResult,
          Turns.blockedResult]

theorem admission_tracks {engine : TurnEngine} {input : TurnInput} {events : List TurnStateEvent}
    {c : Candidate} (w : World σ) (hwait : Awaits engine ports) :
    Tracks S H ports 2 [.dispatchPolicy, .dedupe, .execute] ⟨engine, input, events, .admission c⟩ w.store
      (phase S H engine (phasePorts ports) .admission (candidateContext H c events) w) := by
  have hmove : advance S H ⟨engine, input, events, .admission c⟩ (ports .admission) =
      pure (Turns.phaseAdmission ⟨engine, input, events, .admission c⟩ c) := rfl
  rw [Turns.phaseAdmission] at hmove
  rw [phase, phaseAdmission_decided, evaluateAdmission]
  by_cases hadmitted : engine.admitCallable = true
  · simp only [hadmitted, if_true] at hmove ⊢
    exact Tracks.two (Turn.move_pure hmove)
      (admitting_tracks { w with calls := w.calls ++ [.admitAction c.action c.snapshot] } hwait)
  · simp only [hadmitted] at hmove ⊢
    exact Tracks.one (by decide) (Turn.move_pure hmove) rfl

theorem dispatchPolicy_tracks {engine : TurnEngine} {input : TurnInput} {events : List TurnStateEvent}
    {c : Candidate} {admission : AdmissionValue} (w : World σ) :
    Tracks S H ports 1 [.dedupe, .execute] ⟨engine, input, events, .dispatchPolicy c admission⟩ w.store
      (phase S H engine (phasePorts ports) .dispatchPolicy
        { candidateContext H c events with admissionResult := some admission } w) := by
  have hmove : advance S H ⟨engine, input, events, .dispatchPolicy c admission⟩ (ports .dispatchPolicy) =
      pure (Turns.phaseDispatchPolicy H ⟨engine, input, events, .dispatchPolicy c admission⟩ c admission) :=
    rfl
  rw [Turns.phaseDispatchPolicy] at hmove
  simp only [phase, phaseDispatchPolicy, candidateContext, assertSome_some, pure_bind]
  by_cases hblock : (resolveDispatchPolicy c.action).shouldBlock = true
  · simp only [hblock, if_true] at hmove ⊢
    exact Tracks.one (Nat.le_refl 1) (Turn.move_pure hmove) ⟨rfl, fun h => absurd h (Option.some_ne_none _)⟩
  · simp only [hblock] at hmove ⊢
    exact Tracks.one (Nat.le_refl 1) (Turn.move_pure hmove) ⟨rfl, fun _ => rfl⟩

/-! ### The phases that call the store -/

/-- What a phase does with the store a turn does with it, and an error of the store leaves both. -/
abbrev Does {α β : Type} (R : α → β → Prop) (x : Call PyError σ α) (y : Phase σ β) : Prop :=
  Call.Mirrors World.store (fun e => .raised (.exception e)) R x y

theorem does_ofStore {α : Type} (x : Call PyError σ α) : Does Eq x (ofStore x) := by
  intro w
  cases hx : x w.store with
  | ok a s => exact ⟨a, { w with store := s }, by rw [ofStore_apply, hx], rfl, rfl⟩
  | error e s => exact ⟨{ w with store := s }, by rw [ofStore_apply, hx], rfl⟩

theorem does_reserveAndDispatch (envelope : IdempotencyEnvelope) (peer : Option String) :
    Does Eq (S.reserveAndDispatch envelope peer) (reserveAndDispatch S envelope peer) := by
  intro w
  rw [reserveAndDispatch_apply]
  cases S.reserveAndDispatch envelope peer w.store with
  | ok reservation s => exact ⟨reservation, _, rfl, rfl, rfl⟩
  | error e s => exact ⟨_, rfl, rfl⟩

theorem Does.exceptException {α β : Type} {R : α → β → Prop} {x : Call PyError σ α} {y : Phase σ β}
    {handle : PyError → Call PyError σ α} {handle' : PyError → Phase σ β} (h : Does R x y)
    (hh : ∀ e, Does R (handle e) (handle' e)) :
    Does R (tryCatch x handle) (exceptException y handle') :=
  Call.Mirrors.tryCatch h hh

/-- How the context stands once a step of the turn has done the phase. -/
def Leads (H : Digest) (rest : List TurnPhase) (t : Turn) (m : Move) (ctx : TurnPhaseContext) : Prop :=
  Stands H (t.after m) ctx ∧ (ctx.result = none → remaining (t.after m).progress = rest)

/-- The step in which the turn does it is the step of the phase; what others see of the step is
left open. -/
theorem Does.tracks {rest : List TurnPhase} {t : Turn} {x : Call PyError σ Move}
    {y : Phase σ TurnPhaseContext} {see : Move → Move} (h : Does (Leads H rest t) x y)
    (hmove : advance S H t (ports (point t.progress)) = see <$> guarded t x)
    (hsee : ∀ m, t.after (see m) = t.after m) (w : World σ) :
    Tracks S H ports 1 rest t w.store (y w) := by
  have hw := h w
  cases hx : x w.store with
  | ok m s =>
    have hguarded : t.move S H (ports (point t.progress)) w.store = (see m, s) := by
      rw [Turn.move, hmove, Call.map_apply, guarded, Call.tryCatch_apply, hx]
    rw [hx] at hw
    obtain ⟨ctx, w', hy, rfl, hleads⟩ := hw
    rw [hy]
    refine Tracks.one (Nat.le_refl 1) hguarded ?_
    rw [hsee]
    exact hleads
  | error e s =>
    have hguarded : t.move S H (ports (point t.progress)) w.store =
        (see (.raise t.events (.exception e)), s) := by
      rw [Turn.move, hmove, Call.map_apply, guarded, Call.tryCatch_apply, hx]
      rfl
    rw [hx] at hw
    obtain ⟨w', hy, rfl⟩ := hw
    rw [hy]
    refine Tracks.one (Nat.le_refl 1) hguarded ?_
    rw [hsee]
    rfl

/-- What is known of the reservation, as the turn has it and as the phase has it. -/
def ReservedAs (events : List TurnStateEvent) (r : Turns.Reserved)
    (q : DedupeReservation × IdempotencyEnvelope × Bool × List TurnStateEvent) : Prop :=
  q.1 = r.reservation ∧ q.2.1 = r.envelope ∧ q.2.2.1 = r.dedupeAvailable ∧ r.events = events ++ q.2.2.2

theorem does_reserveWithDegradation (envelope : IdempotencyEnvelope) (action : Action) (hostKind : HostKind)
    (events : List TurnStateEvent) :
    Does (ReservedAs events) (Turns.reserveWithDegradation S envelope action hostKind events)
      (reserveWithDegradation S envelope action hostKind) := by
  refine Does.exceptException ?_ ?_
  · rw [bind_pure_comp]
    refine (does_reserveAndDispatch envelope none).map ?_
    rintro reservation _ rfl
    exact ⟨rfl, rfl, rfl, (List.append_nil events).symm⟩
  · intro e
    by_cases heffect : action.effectClass = .idempotentWrite
    · rw [if_neg (not_not.mpr heffect), if_neg (not_not.mpr heffect)]
      exact Call.mirrors_pure ⟨rfl, rfl, rfl, rfl⟩
    · rw [if_pos heffect, if_pos heffect]
      exact Call.mirrors_throw rfl

theorem does_legacyLookup (c : Candidate) :
    Does Eq (Turns.legacyLookup S H c) (legacyLookup S (c.identity H).dispatchDedupeKey c.legacyKey) := by
  have hkey : c.legacyKey ≠ c.policyKey H := c.legacyKey_ne_policyKey H
  have hkey' : c.legacyKey ≠ (c.identity H).dispatchDedupeKey := hkey
  rw [Turns.legacyLookup, legacyLookup, if_pos hkey, if_pos hkey']
  exact Does.exceptException (does_ofStore _) (fun _ => Call.mirrors_pure rfl)

/-- The historical key, if the mirrored reservation was accepted. -/
def aliasOf (c : Candidate) (mirror : Option DedupeReservation) : Option String :=
  mirror.bind (fun m => if m.accepted then some c.legacyKey else none)

theorem does_mirrorLegacy (c : Candidate) (r : Turns.Reserved) :
    Does (fun mirror key => key = aliasOf c mirror) (Turns.mirrorLegacy S H c r)
      (mirrorLegacy S r.envelope r.dedupeAvailable (c.identity H).dispatchDedupeKey c.legacyKey) := by
  have hkey : c.legacyKey ≠ c.policyKey H := c.legacyKey_ne_policyKey H
  have hkey' : c.legacyKey ≠ (c.identity H).dispatchDedupeKey := hkey
  rw [Turns.mirrorLegacy, mirrorLegacy]
  by_cases havailable : r.dedupeAvailable = true
  · rw [if_pos ⟨havailable, hkey⟩, if_pos ⟨havailable, hkey'⟩]
    refine Does.exceptException ?_ (fun _ => Call.mirrors_pure rfl)
    rw [bind_pure_comp]
    refine (does_reserveAndDispatch (legacyEnvelope c r.envelope) r.envelope.peerOperationId).map ?_
    rintro reservation _ rfl
    rfl
  · rw [if_neg (fun h => havailable h.1), if_neg (fun h => havailable h.1)]
    exact Call.mirrors_pure rfl

theorem dedupe_tracks {engine : TurnEngine} {input : TurnInput} {events : List TurnStateEvent}
    {c : Candidate} {admission : AdmissionValue} {policy : DispatchPolicy} (w : World σ) :
    Tracks S H ports 1 [.execute] ⟨engine, input, events, .dedupe c admission policy⟩ w.store
      (phase S H engine (phasePorts ports) .dedupe
        { candidateContext H c events with
          admissionResult := some admission
          dispatchPolicy := some policy } w) := by
  have hdoes : Does (Leads H [.execute] ⟨engine, input, events, .dedupe c admission policy⟩)
      (Turns.phaseDedupe S H ⟨engine, input, events, .dedupe c admission policy⟩ c admission policy)
      (phase S H engine (phasePorts ports) .dedupe
        { candidateContext H c events with
          admissionResult := some admission
          dispatchPolicy := some policy }) := by
    simp only [phase, phaseDedupe, candidateContext, assertSome_some, pure_bind]
    refine (does_legacyLookup c).bind ?_
    rintro found _ rfl
    cases found with
    | some record => exact Call.mirrors_pure ⟨rfl, fun h => absurd h (Option.some_ne_none _)⟩
    | none =>
      refine (does_reserveWithDegradation _ c.action policy.hostKind events).bind ?_
      rintro ⟨_, _, _, _⟩ ⟨reservation, envelope, dedupeAvailable, more⟩ ⟨rfl, rfl, rfl, rfl⟩
      by_cases haccepted : reservation.accepted = true
      · simp only [haccepted, not_true_eq_false, if_false]
        rw [bind_pure_comp]
        refine (does_mirrorLegacy c ⟨reservation, envelope, dedupeAvailable, events ++ more⟩).map ?_
        rintro mirror _ rfl
        exact ⟨rfl, fun _ => rfl⟩
      · simp only [haccepted]
        exact Call.mirrors_pure ⟨rfl, fun h => absurd h (Option.some_ne_none _)⟩
  exact hdoes.tracks (id_map _).symm (fun _ => rfl) w

theorem does_suppress (x : Call PyError σ Unit) :
    Does Eq x.suppress (exceptException (ofStore x) (fun _ => pure ())) :=
  Does.exceptException (does_ofStore x) (fun _ => Call.mirrors_pure rfl)

theorem does_markBoth {d : Dispatch} {ctx : TurnPhaseContext} {markKey : Call PyError σ Unit}
    {markKey' : Phase σ Unit} {mark : String → Call PyError σ Unit}
    (havailable : ctx.dedupeAvailable = d.dedupeAvailable) (halias : ctx.legacyAliasKey = d.legacyAliasKey)
    (hkey : Does Eq markKey markKey') : Does Eq (Turns.markBoth d markKey mark) (markBoth ctx markKey' mark) := by
  rw [Turns.markBoth, markBoth, havailable, halias]
  split
  · refine hkey.bind ?_
    rintro _ _ rfl
    cases d.legacyAliasKey with
    | some key => exact does_suppress (mark key)
    | none => exact Call.mirrors_pure rfl
  · exact Call.mirrors_pure rfl

/-- The execute phase once the executor has answered. -/
def executed (S : DedupeStorePort σ) (H : Digest) (d : Dispatch) (events : List TurnStateEvent) (now : String)
    (result : ExecuteResult) : Phase σ TurnPhaseContext := do
  let ctx := { dispatchContext H d events with executeResult := some result }
  let acknowledged ← orRaise (result.acknowledged.mapError .exception)
  if acknowledged then
    markBoth ctx (ofStore (S.markAcknowledged (d.candidate.identity H).dispatchDedupeKey none))
      (fun key => S.markAcknowledged key none)
    pure (ctx.conclude [{ state := .dispatchAcknowledged }]
      (acknowledgedResult d.candidate.input d.candidate.action (d.candidate.identity H) d.policy
        (d.context H) now))
  else
    markBoth ctx (ofStore (S.markUnknownEffect (d.candidate.identity H).dispatchDedupeKey))
      S.markUnknownEffect
    pure (ctx.conclude [{ state := .effectUnknown }, { state := .recoveryPending }]
      (recoveryPendingResult d.candidate.input d.candidate.action (d.candidate.identity H) d.policy
        result.items))

/-- The execute phase once the executor has raised. -/
def executionFailed (S : DedupeStorePort σ) (H : Digest) (d : Dispatch) (events : List TurnStateEvent)
    (e : PyError) : Phase σ TurnPhaseContext := do
  markBoth (dispatchContext H d events)
    (exceptException (ofStore (S.markUnknownEffect (d.candidate.identity H).dispatchDedupeKey))
      (fun _ => pure ()))
    S.markUnknownEffect
  raise (.exception e)

/-- What the execute phase makes of the answer of the executor. -/
def executionAnswered (S : DedupeStorePort σ) (H : Digest) (d : Dispatch) (events : List TurnStateEvent)
    (now : String) :
    EStateM.Result Interrupt (World σ) ExecuteResult → EStateM.Result Interrupt (World σ) TurnPhaseContext
  | .ok result w => executed S H d events now result w
  | .error (.raised (.exception e)) w => executionFailed S H d events e w
  | .error i w => .error i w

theorem bind_raise {α β : Type} (x : Phase σ Unit) (r : Raised) (f : α → Phase σ β) (w : World σ) :
    ((x >>= fun _ => (raise r : Phase σ α)) >>= f) w = (x >>= fun _ => (raise r : Phase σ β)) w := by
  rw [Call.bind_apply, Call.bind_apply, Call.bind_apply]
  cases x w <;> rfl

theorem phaseExecute_answered {engine : TurnEngine} {q : Ports} {input : TurnInput} {d : Dispatch}
    {events : List TurnStateEvent} {w : World σ} :
    phaseExecute S engine q (dispatchContext H d events) w =
      executionAnswered S H d events q.utcNowIso
        (awaitPort (q.execute (executorCall H ⟨engine, input, events, .execute d⟩ d))
          { w with
            calls := w.calls ++ [.execute (executorCall H ⟨engine, input, events, .execute d⟩ d)] }) := by
  simp only [phaseExecute, dispatchContext, candidateContext, assertSome_some, pure_bind,
    Option.getD_some, executorCall, Dispatch.context]
  rw [Call.bind_apply]
  simp only [exceptException]
  rw [Call.tryCatch_apply, executeWithContext, Call.bind_apply, ask_apply]
  simp only
  generalize q.execute _ = answer
  cases answer with
  | returned result => rfl
  | timedOut => rfl
  | raised r =>
    cases r with
    | exit name => rfl
    | exception e => exact bind_raise _ _ _ _

theorem does_executed {d : Dispatch} {t : Turn} (now : String) (result : ExecuteResult) :
    Does (Leads H [] t) (executorReturned S H t d now result) (executed S H d t.events now result) := by
  unfold executorReturned executed
  cases hacknowledged : result.acknowledged with
  | error e => exact Call.mirrors_throw rfl
  | ok acknowledged =>
    simp only [Except.mapError, orRaise, pure_bind]
    cases acknowledged with
    | true =>
      rw [if_pos rfl, bind_pure_comp]
      refine (does_markBoth rfl rfl (does_ofStore _)).map ?_
      rintro _ _ rfl
      exact ⟨rfl, fun h => absurd h (Option.some_ne_none _)⟩
    | false =>
      rw [if_neg (by decide), bind_pure_comp]
      refine (does_markBoth rfl rfl (does_ofStore _)).map ?_
      rintro _ _ rfl
      exact ⟨rfl, fun h => absurd h (Option.some_ne_none _)⟩

/-- The executor raised: the turn ends with what it raised once the slot is marked, and so does
the phase. -/
theorem does_executionFailed {rest : List TurnPhase} {d : Dispatch} {t : Turn} (e : PyError) :
    Does (Leads H rest t)
      (Turns.markBoth d (S.markUnknownEffect (d.candidate.identity H).dispatchDedupeKey).suppress
        S.markUnknownEffect >>= fun _ => throw e) (executionFailed S H d t.events e) :=
  (does_markBoth rfl rfl (does_suppress _)).bind (fun _ _ _ => Call.mirrors_throw rfl)

theorem guarded_executorRaised {d : Dispatch} {t : Turn} (e : PyError) :
    guarded t (executorRaised S H t d (.exception e)) =
      guarded t (Turns.markBoth d (S.markUnknownEffect (d.candidate.identity H).dispatchDedupeKey).suppress
        S.markUnknownEffect >>= fun _ => throw e) := by
  funext s
  simp only [guarded, executorRaised]
  rw [Call.tryCatch_apply, Call.tryCatch_apply, Call.map_apply, Call.bind_apply]
  cases Turns.markBoth d (S.markUnknownEffect (d.candidate.identity H).dispatchDedupeKey).suppress
    S.markUnknownEffect s <;> rfl

/-- The turn awaits the executor. -/
theorem executing_tracks {engine : TurnEngine} {input : TurnInput} {events : List TurnStateEvent}
    {d : Dispatch} {call : ExecutorCall} (w : World σ) (hwait : Awaits engine ports) :
    Tracks S H ports 1 [] ⟨engine, input, events, .executing d call⟩ w.store
      (executionAnswered S H d events (ports .executing).utcNowIso
        (awaitPort ((ports .executing).execute call) w)) := by
  have hmove : advance S H ⟨engine, input, events, .executing d call⟩ (ports .executing) =
      executionEnded S H ⟨engine, input, events, .executing d call⟩ d (ports .executing).utcNowIso
        ((ports .executing).execute call) := rfl
  cases hanswer : (ports .executing).execute call with
  | timedOut =>
    have htimeout : engine.phaseTimeoutMs ≠ none := fun h => hwait.execute h call hanswer
    rw [hanswer, executionEnded,
      timedOut_of_timeout (t := ⟨engine, input, events, .executing d call⟩) htimeout] at hmove
    exact Tracks.one (Nat.le_refl 1) (Turn.move_pure hmove) rfl
  | returned result =>
    rw [hanswer] at hmove
    exact (does_executed (t := ⟨engine, input, events, .executing d call⟩) _ result).tracks hmove
      (fun _ => rfl) w
  | raised r =>
    rw [hanswer, executionEnded] at hmove
    cases r with
    | exit name =>
      exact Tracks.one (Nat.le_refl 1) (Turn.move_pure hmove) rfl
    | exception e =>
      rw [guarded_executorRaised] at hmove
      exact (does_executionFailed (t := ⟨engine, input, events, .executing d call⟩) e).tracks
        hmove (fun _ => rfl) w

theorem execute_tracks {engine : TurnEngine} {input : TurnInput} {events : List TurnStateEvent}
    {d : Dispatch} (w : World σ) (hwait : Awaits engine ports) :
    Tracks S H ports 2 [] ⟨engine, input, events, .execute d⟩ w.store
      (phase S H engine (phasePorts ports) .execute (dispatchContext H d events) w) := by
  have hmove : advance S H ⟨engine, input, events, .execute d⟩ (ports .execute) =
      pure (Turns.phaseExecute H ⟨engine, input, events, .execute d⟩ d) := rfl
  refine Tracks.two (Turn.move_pure hmove) ?_
  rw [phase, phaseExecute_answered]
  exact executing_tracks
    { w with calls := w.calls ++ [.execute (executorCall H ⟨engine, input, events, .execute d⟩ d)] } hwait

/-! ### The whole turn -/

/-- The phase after which the turn stands, whichever it is. -/
theorem phase_tracks {t : Turn} {p : TurnPhase} {rest : List TurnPhase} {ctx : TurnPhaseContext} (w : World σ)
    (hstands : Stands H t ctx) (hremaining : remaining t.progress = p :: rest) (hwait : Awaits t.engine ports)
    (htime : p ≠ .noopOrReasoning → t.engine.outOfTime = false) :
    Tracks S H ports p.steps rest t w.store (waitFor S H t.engine (phasePorts ports) p ctx w) := by
  obtain ⟨engine, input, events, progress⟩ := t
  cases progress with
  | noopOrReasoning action =>
    cases hremaining
    cases hstands
    exact noopOrReasoning_tracks hwait
  | snapshot action =>
    cases hremaining
    cases hstands
    rw [waitFor_inTime (htime (by decide))]
    exact snapshot_tracks w
  | admission c =>
    cases hremaining
    cases hstands
    rw [waitFor_inTime (htime (by decide))]
    exact admission_tracks w hwait
  | dispatchPolicy c admission =>
    cases hremaining
    cases hstands
    rw [waitFor_inTime (htime (by decide))]
    exact dispatchPolicy_tracks w
  | dedupe c admission policy =>
    cases hremaining
    cases hstands
    rw [waitFor_inTime (htime (by decide))]
    exact dedupe_tracks w
  | execute d =>
    cases hremaining
    cases hstands
    rw [waitFor_inTime (htime (by decide))]
    exact execute_tracks w hwait
  | reasoning request => cases hremaining
  | admitting c => cases hremaining
  | executing d call => cases hremaining
  | finished outcome => cases hremaining

/-- What the caller of `run_turn` sees of the loop. -/
def ended : EStateM.Result Interrupt (World σ) LoopEnd → TurnOutcome
  | .ok e _ => e.outcome
  | .error i _ => .raised i.toRaised

/-- The steps the phases take at most. -/
def stepsOf : List TurnPhase → Nat
  | [] => 0
  | p :: rest => p.steps + stepsOf rest

/-- A turn that stands between two phases has phases to come. -/
theorem remaining_ne_nil {t : Turn} {ctx : TurnPhaseContext} (hstands : Stands H t ctx)
    (hresult : ctx.result = none) : remaining t.progress ≠ [] := by
  obtain ⟨engine, input, events, progress⟩ := t
  cases progress with
  | finished outcome =>
    cases outcome with
    | returned result =>
      have hsome : ctx.result = some result := hstands
      rw [hresult] at hsome
      cases hsome
    | raised r => exact False.elim hstands
  | reasoning request => exact False.elim hstands
  | admitting c => exact False.elim hstands
  | executing d call => exact False.elim hstands
  | noopOrReasoning action => exact List.cons_ne_nil _ _
  | snapshot action => exact List.cons_ne_nil _ _
  | admission c => exact List.cons_ne_nil _ _
  | dispatchPolicy c admission => exact List.cons_ne_nil _ _
  | dedupe c admission policy => exact List.cons_ne_nil _ _
  | execute d => exact List.cons_ne_nil _ _

/-- A turn whose context has a result has returned it. -/
theorem Stands.returned {t : Turn} {ctx : TurnPhaseContext} {result : TurnResult} (hstands : Stands H t ctx)
    (hresult : ctx.result = some result) : t.progress = .finished (.returned result) := by
  obtain ⟨engine, input, events, progress⟩ := t
  cases progress with
  | finished outcome =>
    cases outcome with
    | returned result' =>
      have hsome : ctx.result = some result' := hstands
      rw [hresult] at hsome
      cases hsome
      rfl
    | raised r => exact False.elim hstands
  | reasoning request => exact False.elim hstands
  | admitting c => exact False.elim hstands
  | executing d call => exact False.elim hstands
  | noopOrReasoning action =>
    cases hstands
    cases hresult
  | snapshot action =>
    cases hstands
    cases hresult
  | admission c =>
    cases hstands
    cases hresult
  | dispatchPolicy c admission =>
    cases hstands
    cases hresult
  | dedupe c admission policy =>
    cases hstands
    cases hresult
  | execute d =>
    cases hstands
    cases hresult

theorem inTime_of_ok {engine : TurnEngine} {q : TurnPhase → Ports} {p : TurnPhase}
    {ctx ctx' : TurnPhaseContext} {w w' : World σ} (h : waitFor S H engine q p ctx w = .ok ctx' w') :
    engine.outOfTime = false := by
  rw [waitFor] at h
  split at h
  · cases h
  · next hout => exact Bool.eq_false_iff.mpr hout

/-- The phases to come, by induction on them: each starts where the one before it left the turn. -/
theorem runPhases_track : ∀ (phases : List TurnPhase) (t : Turn) (ctx : TurnPhaseContext) (w : World σ),
    Stands H t ctx → ctx.result = none → remaining t.progress = phases → Awaits t.engine ports →
    (phases ≠ turnPhases → t.engine.outOfTime = false) →
    ∃ k ≤ stepsOf phases, ∃ t',
      (resume S H ports)^[k] (t, w.store) =
        (t', storeAfter (runPhases S H t.engine (phasePorts ports) phases ctx w)) ∧
      t'.progress = .finished (ended (runPhases S H t.engine (phasePorts ports) phases ctx w)) := by
  intro phases
  induction phases with
  | nil =>
    intro t ctx w hstands hresult hremaining
    exact absurd hremaining (remaining_ne_nil hstands hresult)
  | cons p rest ih =>
    intro t ctx w hstands hresult hremaining hwait htime
    have hfirst : p ≠ .noopOrReasoning → t.engine.outOfTime = false := by
      intro hp
      apply htime
      rintro heq
      cases heq
      exact hp rfl
    obtain ⟨k, hk, t₁, hrun, hengine, hleft⟩ := phase_tracks (S := S) w hstands hremaining hwait hfirst
    rw [runPhases, Call.bind_apply]
    cases hphase : waitFor S H t.engine (phasePorts ports) p ctx w with
    | error i w₁ =>
      rw [hphase] at hrun hleft
      exact ⟨k, le_trans hk (Nat.le_add_right _ _), t₁, hrun, hleft⟩
    | ok ctx₁ w₁ =>
      rw [hphase] at hrun hleft
      obtain ⟨hstands₁, hremaining₁⟩ := hleft
      cases hresult₁ : ctx₁.result with
      | some result =>
        simp only [hresult₁]
        exact ⟨k, le_trans hk (Nat.le_add_right _ _), t₁, hrun, hstands₁.returned hresult₁⟩
      | none =>
        simp only [hresult₁]
        obtain ⟨k', hk', t₂, hrun', hprogress⟩ := ih t₁ ctx₁ w₁ hstands₁ hresult₁ (hremaining₁ hresult₁)
          (by rw [hengine]; exact hwait) (fun _ => by rw [hengine]; exact inTime_of_ok hphase)
        rw [hengine] at hrun' hprogress
        refine ⟨k' + k, ?_, t₂, ?_, hprogress⟩
        · have hsum : stepsOf (p :: rest) = p.steps + stepsOf rest := rfl
          omega
        · rw [Function.iterate_add_apply, hrun]
          exact hrun'

/-- A turn that has ended stays as it is. -/
theorem resume_finished {t : Turn} {outcome : TurnOutcome} (s : σ) (h : t.progress = .finished outcome) :
    resume S H ports (t, s) = (t, s) := by
  obtain ⟨engine, input, events, progress⟩ := t
  cases h
  rfl

/-- Nine steps take a turn to its end, and to the end of the loop over the phases. -/
theorem resumed_nine (engine : TurnEngine) (input : TurnInput) (action : Option Action) (store : σ)
    (hwait : Awaits engine ports) {n : Nat} (hn : 9 ≤ n) :
    ∃ t, (resume S H ports)^[n] (Turn.start engine input action, store) =
        (t, storeAfter (runTurn S H engine (phasePorts ports) input action { store := store })) ∧
      t.progress = .finished
        (ended (runTurn S H engine (phasePorts ports) input action { store := store })) := by
  obtain ⟨k, hk, t, hrun, hprogress⟩ := runPhases_track (S := S) (H := H) turnPhases
    (Turn.start engine input action) _ { store := store } rfl rfl rfl hwait (fun h => absurd rfl h)
  have hk9 : k ≤ 9 := hk
  refine ⟨t, ?_, hprogress⟩
  obtain ⟨m, rfl⟩ := Nat.exists_eq_add_of_le (le_trans hk9 hn)
  have hrun' : (resume S H ports)^[k] (Turn.start engine input action, store) = _ := hrun
  rw [Nat.add_comm, Function.iterate_add_apply, hrun']
  exact Function.iterate_fixed (resume_finished _ hprogress) m

/-- The turn takes the next step, with nobody in between. -/
def stepAlone (S : DedupeStorePort σ) (H : Digest) (ports : Point → Ports) (i : Nat) (s : System σ) :
    System σ :=
  match s.turns[i]? with
  | none => s
  | some t => System.step S H s ⟨i, ports (point t.progress)⟩

theorem stepAlone_resume (ports : Point → Ports) {s : System σ} {i : Nat} {t : Turn}
    (h : s.turns[i]? = some t) :
    (stepAlone S H ports i s).store = (resume S H ports (t, s.store)).2 ∧
      (stepAlone S H ports i s).turns = s.turns.set i (resume S H ports (t, s.store)).1 := by
  simp only [stepAlone, h, System.step, resume]
  exact ⟨trivial, trivial⟩

theorem stepAlone_iterate (ports : Point → Ports) (i : Nat) :
    ∀ (n : Nat) (s : System σ) (t : Turn), s.turns[i]? = some t →
    ((stepAlone S H ports i)^[n] s).store = ((resume S H ports)^[n] (t, s.store)).2 ∧
      ((stepAlone S H ports i)^[n] s).turns = s.turns.set i ((resume S H ports)^[n] (t, s.store)).1 := by
  intro n
  induction n with
  | zero =>
    intro s t h
    obtain ⟨hi, rfl⟩ := List.getElem?_eq_some_iff.mp h
    exact ⟨rfl, (List.set_getElem_self hi).symm⟩
  | succ n ih =>
    intro s t h
    obtain ⟨hstore, hturns⟩ := stepAlone_resume (S := S) (H := H) ports h
    obtain ⟨hi, -⟩ := List.getElem?_eq_some_iff.mp h
    have hget : (stepAlone S H ports i s).turns[i]? = some (resume S H ports (t, s.store)).1 := by
      rw [hturns, List.getElem?_set_self hi]
    obtain ⟨hstore', hturns'⟩ := ih _ _ hget
    rw [hstore, Prod.mk.eta] at hstore' hturns'
    rw [hturns, List.set_set] at hturns'
    simp only [Function.iterate_succ_apply]
    exact ⟨hstore', hturns'⟩

/-- From any state of the system, whatever other turns are under way: a turn that has not started
and is then left alone has ended after nine steps, returned or raised as the loop over its
phases, and left the store as that loop does; the other turns stand where they stood. -/
theorem turn_alone (S : DedupeStorePort σ) (H : Digest) (ports : Point → Ports) (s : System σ) (i : Nat)
    (engine : TurnEngine) (input : TurnInput) (action : Option Action)
    (hturn : s.turns[i]? = some (Turn.start engine input action)) (hwait : Awaits engine ports)
    {n : Nat} (hn : 9 ≤ n) :
    ∃ t, t.progress = .finished
        (ended (runTurn S H engine (phasePorts ports) input action { store := s.store })) ∧
      ((stepAlone S H ports i)^[n] s).turns = s.turns.set i t ∧
      ((stepAlone S H ports i)^[n] s).store =
        storeAfter (runTurn S H engine (phasePorts ports) input action { store := s.store }) := by
  obtain ⟨t, hrun, hprogress⟩ := resumed_nine (S := S) (H := H) engine input action s.store hwait hn
  obtain ⟨hstore, hturns⟩ := stepAlone_iterate (S := S) (H := H) ports i n s _ hturn
  rw [hrun] at hstore hturns
  exact ⟨t, hprogress, hturns, hstore⟩

end

namespace Sample

/-- Two turns that have not started. -/
def twoTurns : System Bool :=
  System.start false [Turns.Sample.call {} "run" "act", Turns.Sample.call {} "other" "act"]

def answering (_ : Point) : Ports := Turns.Sample.ports Turns.Sample.acknowledged

theorem answering_awaited : Awaits {} answering where
  runOnce := fun _ _ h => nomatch h
  admission := fun _ _ _ h => nomatch h
  execute := fun _ _ h => nomatch h

/-- The second turn, alone, is dispatched and acknowledged, and the first has not moved. -/
theorem turn_alone_acknowledged :
    ∃ t result, t.progress = .finished (.returned result) ∧ result.state = .dispatchAcknowledged ∧
      ((stepAlone onceStore Turns.Sample.digest answering 1)^[9] twoTurns).turns = twoTurns.turns.set 1 t ∧
      ((stepAlone onceStore Turns.Sample.digest answering 1)^[9] twoTurns).store = true := by
  obtain ⟨t, hprogress, hturns, hstore⟩ := turn_alone onceStore Turns.Sample.digest answering twoTurns 1 {}
    (Turns.Sample.input "other") (some (Turns.Sample.action "other" "act")) rfl answering_awaited (Nat.le_refl 9)
  exact ⟨t, _, hprogress, rfl, hturns, hstore⟩

end Sample

end AgentKernel.Turns.Phases
