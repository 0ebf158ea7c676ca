import AgentKernel.Turns.Path

/-! What is known of a turn that returned.

The turn was given its action. `runTurn_returned` says, from what the engine's ports and the
dedupe store answered, which snapshot was built, whether the executor was invoked and which
fingerprint the result carries. -/
namespace AgentKernel.Turns.Phases
open Lib Dedupe IdempotencyKeyPolicy

/-! ### What the calls tell -/

/-- The executor was invoked. -/
def invoked (calls : List PortCall) : Bool := calls.any PortCall.executes

/-- The hash of the snapshot that a call shows. -/
def PortCall.shownHash : PortCall → Option String
  | .admitAction _ snapshot => some snapshot.snapshotHash
  | _ => none

/-- The hash of the snapshot that the turn was built on: its admission is asked for with it. -/
def builtHash (calls : List PortCall) : Option String := calls.findSome? PortCall.shownHash

/-- Calls that only reserve. -/
def Reserves (calls : List PortCall) : Prop := ∀ c ∈ calls, ∃ key raised, c = .reserveAndDispatch key raised

theorem Reserves.invoked {calls : List PortCall} (h : Reserves calls) : invoked calls = false := by
  rw [Phases.invoked, List.any_eq_false]
  intro c hc
  obtain ⟨key, raised, rfl⟩ := h c hc
  exact Bool.false_ne_true

theorem Reserves.builtHash {calls : List PortCall} (h : Reserves calls) : builtHash calls = none := by
  rw [Phases.builtHash, List.findSome?_eq_none_iff]
  intro c hc
  obtain ⟨key, raised, rfl⟩ := h c hc
  rfl

theorem reserves_nil : Reserves [] := by
  intro c hc
  cases hc

theorem Reserves.append {a b : List PortCall} (ha : Reserves a) (hb : Reserves b) : Reserves (a ++ b) := by
  intro c hc
  rcases List.mem_append.mp hc with hc | hc
  · exact ha c hc
  · exact hb c hc

theorem reserves_singleton (key : String) (raised : Bool) :
    Reserves [.reserveAndDispatch key raised] := by
  intro c hc
  rw [List.mem_singleton] at hc
  exact ⟨key, raised, hc⟩

/-! ### Before the executor -/

section
variable {σ : Type} (S : DedupeStorePort σ) (H : Digest) (engine : TurnEngine) (ports : TurnPhase → Ports)

/-- The store lets a dispatch through: it shows no record under the historical key, and it
accepts the reservation or, for an idempotent write, fails at it. -/
def Clears (action : Action) (legacyKey : String) (envelope : IdempotencyEnvelope) (s : σ) : Prop :=
  ((S.get legacyKey).outcome s).toOption.join = none ∧
    match (S.reserveAndDispatch envelope none).outcome ((S.get legacyKey).after s) with
    | .ok reservation => reservation.accepted
    | .error _ => action.effectClass = .idempotentWrite

/-- What the dedupe phase reserves with. -/
def envelopeOf (input : TurnInput) (action : Action) (snapshot : CapabilitySnapshot)
    (admission : AdmissionValue) : IdempotencyEnvelope :=
  resolveIdempotencyEnvelope admission
    (buildTurnIdentity H input action (some snapshot.snapshotHash)) action snapshot
    (resolveDispatchPolicy action).hostKind

/-- The turn comes to the executor: the action is admitted, its policy does not block it and the
store lets it through. -/
def ComesToExecutor (input : TurnInput) (action : Action) (s : σ) : Prop :=
  ∃ snapshot admission, buildSnapshot engine (ports .snapshot) input action = .ok snapshot ∧
    (ports .admission).evaluateAdmission action snapshot = .returned admission ∧
    isAdmitted admission = .ok true ∧
    (resolveDispatchPolicy action).shouldBlock = false ∧
    Clears S action (legacyDispatchDedupeKey input.runId action.actionId input.basedOnOffset)
      (envelopeOf H input action snapshot admission) s

end

/-! ### One phase -/

/-- A turn past the snapshot phase that has not ended. -/
structure Standing (H : Digest) (input : TurnInput) (action : Action) (snapshot : CapabilitySnapshot)
    (ctx : TurnPhaseContext) : Prop where
  given : ctx.input = input
  chosen : ctx.action = some action
  built : ctx.snapshot = some snapshot
  identified : ctx.turnIdentity = some (buildTurnIdentity H input action (some snapshot.snapshotHash))
  unfinished : ctx.result = none

/-- The fingerprint of a turn, as every result but that of a turn without an action has it. -/
def fingerprint (input : TurnInput) (action : Action) : String :=
  input.runId ++ ":" ++ input.triggerType.text ++ ":" ++ action.actionId ++ ":" ++
    toString input.basedOnOffset

/-- The result of a turn that came past its snapshot. -/
structure Decided (input : TurnInput) (action : Action) (result : TurnResult) : Prop where
  kind : result.outcomeKind ≠ .noop
  decisionFingerprint : result.decisionFingerprint = fingerprint input action

section
variable (H : Digest) (input : TurnInput) (action : Action) (hash : Option String)

theorem blocked_decided (dp : Option DispatchPolicy) (events : List TurnStateEvent) :
    Decided input action (blockedResult (buildTurnIdentity H input action hash) dp events) := by
  refine ⟨?_, rfl⟩
  intro hkind
  cases hkind

theorem acknowledged_decided (dp : DispatchPolicy) (executionContext : ExecutionContext) (now : String)
    (events : List TurnStateEvent) :
    Decided input action (acknowledgedResult input action (buildTurnIdentity H input action hash) dp
      executionContext now events) := by
  refine ⟨?_, rfl⟩
  intro hkind
  cases hkind

theorem recoveryPending_decided (dp : DispatchPolicy) (executeResult : Payload)
    (events : List TurnStateEvent) :
    Decided input action (recoveryPendingResult input action (buildTurnIdentity H input action hash) dp
      executeResult events) := by
  refine ⟨?_, rfl⟩
  intro hkind
  cases hkind

end

section
variable {σ : Type} {S : DedupeStorePort σ} {H : Digest} {engine : TurnEngine} {input : TurnInput}
  {action : Action} {snapshot : CapabilitySnapshot} {ctx ctx' : TurnPhaseContext} {w w' : World σ}

theorem ask_apply (c : PortCall) :
    ask c w = .ok () { w with calls := w.calls ++ [c] } := rfl

/-- A phase of a turn that returned ended it or handed on to the next. -/
theorem runPhases_returned {ports : TurnPhase → Ports} {p : TurnPhase} {rest : List TurnPhase}
    {result : TurnResult}
    (h : runPhases S H engine ports (p :: rest) ctx w = .ok (.returned result) w') :
    ∃ ctx₁ w₁, phase S H engine ports p ctx w = .ok ctx₁ w₁ ∧
      (∀ r, ctx₁.result = some r → r = result ∧ w₁ = w') ∧
      (ctx₁.result = none → runPhases S H engine ports rest ctx₁ w₁ = .ok (.returned result) w') := by
  rw [runPhases, Call.bind_apply] at h
  cases hwait : waitFor S H engine ports p ctx w with
  | error i w₁ =>
    rw [hwait] at h
    cases h
  | ok ctx₁ w₁ =>
    rw [hwait] at h
    have hphase : phase S H engine ports p ctx w = .ok ctx₁ w₁ := by
      rw [waitFor] at hwait
      split at hwait
      · cases hwait
      · exact hwait
    refine ⟨ctx₁, w₁, hphase, ?_⟩
    constructor
    · intro r hr
      simp only [hr] at h
      cases h
      exact ⟨rfl, rfl⟩
    · intro hnone
      simp only [hnone] at h
      exact h

variable {ports : Ports}

theorem phaseNoopOrReasoning_returned (haction : ctx.action = some action)
    (h : phaseNoopOrReasoning engine ports ctx w = .ok ctx' w') : ctx' = ctx ∧ w' = w := by
  rw [phaseNoopOrReasoning, haction] at h
  cases h
  exact ⟨rfl, rfl⟩

theorem assertSome_some {α : Type} (a : α) : (assertSome (some a) : Phase σ α) = pure a := rfl

/-- The snapshot phase builds the snapshot, or ends the turn if it cannot be built. -/
theorem phaseSnapshot_returned (hinput : ctx.input = input) (haction : ctx.action = some action)
    (hresult : ctx.result = none) (h : phaseSnapshot H engine ports ctx w = .ok ctx' w') :
    w' = w ∧
      ((∃ snapshot, buildSnapshot engine ports input action = .ok snapshot ∧
        Standing H input action snapshot ctx') ∨
      ((∀ snapshot, buildSnapshot engine ports input action ≠ .ok snapshot) ∧
        ∃ events, ctx'.result =
          some (noSnapshotResult (buildTurnIdentity H input action none) events))) := by
  rw [phaseSnapshot, haction, hinput, assertSome_some, pure_bind] at h
  cases hbuild : buildSnapshot engine ports input action with
  | ok snapshot =>
    rw [hbuild] at h
    cases h
    exact ⟨rfl, .inl ⟨snapshot, rfl, ⟨rfl, rfl, rfl, rfl, hresult⟩⟩⟩
  | error r =>
    cases r with
    | exit name =>
      rw [hbuild] at h
      cases h
    | exception e =>
      rw [hbuild] at h
      simp only at h
      split at h
      · cases h
        refine ⟨rfl, .inr ⟨?_, _, rfl⟩⟩
        intro snapshot hsnapshot
        cases hsnapshot
      · cases h

/-- The admission phase asks about the snapshot, and ends the turn if the action is not admitted. -/
theorem phaseAdmission_returned (hctx : Standing H input action snapshot ctx)
    (h : phaseAdmission engine ports ctx w = .ok ctx' w') :
    ∃ admission admitted, ports.evaluateAdmission action snapshot = .returned admission ∧
      isAdmitted admission = .ok admitted ∧
      w' = { w with calls := w.calls ++ [.admitAction action snapshot] } ∧
      if admitted then Standing H input action snapshot ctx' ∧ ctx'.admissionResult = some admission
      else ∃ result, ctx'.result = some result ∧ Decided input action result := by
  rw [phaseAdmission, hctx.chosen, hctx.built, hctx.identified] at h
  change (evaluateAdmission engine ports action snapshot >>= fun admissionResult => _) w = _ at h
  rw [Call.bind_apply, evaluateAdmission] at h
  by_cases hcall : engine.admitCallable
  · rw [if_pos hcall, Call.bind_apply, ask_apply] at h
    cases hanswer : ports.evaluateAdmission action snapshot with
    | timedOut =>
      rw [hanswer] at h
      cases h
    | raised r =>
      rw [hanswer] at h
      cases h
    | returned admission =>
      rw [hanswer] at h
      simp only [awaitPort, Call.pure_apply] at h
      cases hadmitted : isAdmitted admission with
      | error r =>
        simp only [hadmitted] at h
        cases h
      | ok admitted =>
        refine ⟨admission, admitted, rfl, hadmitted, ?_⟩
        simp only [hadmitted, orRaise] at h
        cases admitted with
        | true =>
          cases h
          exact ⟨rfl, ⟨hctx.given, rfl, rfl, rfl, hctx.unfinished⟩, rfl⟩
        | false =>
          cases h
          exact ⟨rfl, _, rfl, blocked_decided H input action _ _ _⟩
  · rw [if_neg hcall] at h
    cases h

/-- The policy phase keeps its verdict, and ends the turn if that is to block. -/
theorem phaseDispatchPolicy_returned {admission : AdmissionValue}
    (hctx : Standing H input action snapshot ctx) (hadmission : ctx.admissionResult = some admission)
    (h : phaseDispatchPolicy ctx w = .ok ctx' w') :
    w' = w ∧
      if (resolveDispatchPolicy action).shouldBlock then
        ∃ result, ctx'.result = some result ∧ Decided input action result
      else Standing H input action snapshot ctx' ∧ ctx'.admissionResult = some admission ∧
        ctx'.dispatchPolicy = some (resolveDispatchPolicy action) := by
  rw [phaseDispatchPolicy, hctx.chosen, hctx.identified] at h
  change (if (resolveDispatchPolicy action).shouldBlock then _ else _ :
    Phase σ TurnPhaseContext) w = _ at h
  by_cases hblock : (resolveDispatchPolicy action).shouldBlock
  · rw [if_pos hblock] at h
    cases h
    rw [if_pos hblock]
    rw [hctx.given]
    exact ⟨rfl, _, rfl, blocked_decided H input action _ _ _⟩
  · rw [if_neg hblock] at h
    cases h
    rw [if_neg hblock]
    exact ⟨rfl, ⟨hctx.given, rfl, hctx.built, rfl, hctx.unfinished⟩, hadmission, rfl⟩

/-! ### The dedupe phase -/

theorem ofStore_apply {α : Type} (x : Call PyError σ α) :
    ofStore x w = match x w.store with
      | .ok a s => .ok a { w with store := s }
      | .error e s => .error (.raised (.exception e)) { w with store := s } := rfl

theorem legacyLookup_apply {key legacyKey : String} (hkey : legacyKey ≠ key) :
    legacyLookup S key legacyKey w =
      .ok ((S.get legacyKey).outcome w.store).toOption.join
        { w with store := (S.get legacyKey).after w.store } := by
  rw [legacyLookup, if_pos hkey, exceptException, Call.tryCatch_apply, ofStore_apply]
  cases hget : S.get legacyKey w.store with
  | ok found s => simp only [Call.outcome, Call.after, hget]; rfl
  | error e s => simp only [Call.outcome, Call.after, hget]; rfl

theorem reserveAndDispatch_apply (envelope : IdempotencyEnvelope) (peer : Option String) :
    reserveAndDispatch S envelope peer w = match S.reserveAndDispatch envelope peer w.store with
      | .ok reservation s => .ok reservation
        { store := s, calls := w.calls ++ [.reserveAndDispatch envelope.dispatchIdempotencyKey false] }
      | .error e s => .error (.raised (.exception e))
        { store := s, calls := w.calls ++ [.reserveAndDispatch envelope.dispatchIdempotencyKey true] } := by
  rw [reserveAndDispatch, Call.tryCatch_apply, Call.bind_apply, ofStore_apply]
  cases S.reserveAndDispatch envelope peer w.store with
  | ok reservation s => rfl
  | error e s => rfl

/-- The reservation for a dispatch returns what the store answers, or for an idempotent write
stands in for it. -/
theorem reserveWithDegradation_returned {envelope : IdempotencyEnvelope} {hostKind : HostKind}
    {r : DedupeReservation × IdempotencyEnvelope × Bool × List TurnStateEvent}
    (h : reserveWithDegradation S envelope action hostKind w = .ok r w') :
    (∃ more, Reserves more ∧ w'.calls = w.calls ++ more) ∧
      match (S.reserveAndDispatch envelope none).outcome w.store with
      | .ok reservation => r.1 = reservation
      | .error _ => r.1.accepted = true ∧ action.effectClass = .idempotentWrite := by
  rw [reserveWithDegradation, exceptException, Call.tryCatch_apply, Call.bind_apply,
    reserveAndDispatch_apply] at h
  cases hreserve : S.reserveAndDispatch envelope none w.store with
  | ok reservation s =>
    rw [hreserve] at h
    cases h
    refine ⟨⟨_, reserves_singleton _ _, rfl⟩, ?_⟩
    simp only [Call.outcome, hreserve]
  | error e s =>
    rw [hreserve] at h
    simp only at h
    by_cases heffect : action.effectClass = .idempotentWrite
    · rw [if_neg (by simp [heffect])] at h
      cases h
      refine ⟨⟨_, reserves_singleton _ _, rfl⟩, ?_⟩
      simp only [Call.outcome, hreserve]
      exact ⟨rfl, heffect⟩
    · rw [if_pos heffect] at h
      cases h

theorem mirrorLegacy_returned {envelope : IdempotencyEnvelope} {available : Bool}
    {key legacyKey : String} {aliasKey : Option String}
    (h : mirrorLegacy S envelope available key legacyKey w = .ok aliasKey w') :
    ∃ more, Reserves more ∧ w'.calls = w.calls ++ more := by
  rw [mirrorLegacy] at h
  split at h
  · rw [exceptException, Call.tryCatch_apply, Call.bind_apply, reserveAndDispatch_apply] at h
    cases hreserve : S.reserveAndDispatch { envelope with dispatchIdempotencyKey := legacyKey }
        envelope.peerOperationId w.store with
    | ok reservation s =>
      rw [hreserve] at h
      cases h
      exact ⟨_, reserves_singleton _ _, rfl⟩
    | error e s =>
      rw [hreserve] at h
      cases h
      exact ⟨_, reserves_singleton _ _, rfl⟩
  · cases h
    exact ⟨[], reserves_nil, (List.append_nil _).symm⟩

/-- Where no historical record is found it is the answer of the reservation that decides. -/
theorem clears_iff_accepted {legacyKey : String} {envelope : IdempotencyEnvelope} {s : σ}
    {reserved : DedupeReservation}
    (hfound : ((S.get legacyKey).outcome s).toOption.join = none)
    (hanswer : match (S.reserveAndDispatch envelope none).outcome ((S.get legacyKey).after s) with
      | .ok reservation => reserved = reservation
      | .error _ => reserved.accepted = true ∧ action.effectClass = .idempotentWrite) :
    Clears S action legacyKey envelope s ↔ reserved.accepted = true := by
  rw [Clears, hfound]
  cases hreserve : (S.reserveAndDispatch envelope none).outcome ((S.get legacyKey).after s) with
  | ok reservation =>
    rw [hreserve] at hanswer
    simp only at hanswer
    simp only [hanswer, true_and]
  | error e =>
    rw [hreserve] at hanswer
    simp only [hanswer.1, hanswer.2, true_and]

/-- The dedupe phase hands on to the executor if the store lets the dispatch through, and ends the
turn if it does not. -/
theorem phaseDedupe_returned {admission : AdmissionValue}
    (hctx : Standing H input action snapshot ctx) (hadmission : ctx.admissionResult = some admission)
    (hpolicy : ctx.dispatchPolicy = some (resolveDispatchPolicy action))
    (h : phaseDedupe S ctx w = .ok ctx' w') :
    (∃ more, Reserves more ∧ w'.calls = w.calls ++ more) ∧
      ((Clears S action (legacyDispatchDedupeKey input.runId action.actionId input.basedOnOffset)
          (envelopeOf H input action snapshot admission) w.store ∧
        Standing H input action snapshot ctx' ∧
        ctx'.dispatchPolicy = some (resolveDispatchPolicy action) ∧ ctx'.envelope.isSome) ∨
      (¬ Clears S action (legacyDispatchDedupeKey input.runId action.actionId input.basedOnOffset)
          (envelopeOf H input action snapshot admission) w.store ∧
        ∃ result, ctx'.result = some result ∧ Decided input action result)) := by
  have hkeys := legacy_ne_generate H input.runId action snapshot.snapshotHash input.basedOnOffset
  rw [phaseDedupe, hctx.chosen, hctx.built, hctx.identified, hpolicy, hadmission, hctx.given] at h
  change (legacyLookup S (generate H input.runId action snapshot.snapshotHash)
    (legacyDispatchDedupeKey input.runId action.actionId input.basedOnOffset) >>= fun _ => _) w = _ at h
  rw [Call.bind_apply, legacyLookup_apply hkeys] at h
  have henvelope : resolveIdempotencyEnvelope admission
      (buildTurnIdentity H input action (some snapshot.snapshotHash)) action snapshot
      (resolveDispatchPolicy action).hostKind = envelopeOf H input action snapshot admission := rfl
  simp only [Option.getD_some, henvelope] at h
  cases hfound : ((S.get (legacyDispatchDedupeKey input.runId action.actionId
    input.basedOnOffset)).outcome w.store).toOption.join with
  | some record =>
    rw [hfound, if_pos Option.isSome_some] at h
    cases h
    refine ⟨⟨[], reserves_nil, (List.append_nil _).symm⟩,
      .inr ⟨?_, _, rfl, blocked_decided H input action _ _ _⟩⟩
    intro hclears
    rw [Clears, hfound] at hclears
    cases hclears.1
  | none =>
    rw [hfound, if_neg (by simp), Call.bind_apply] at h
    cases hreserve : reserveWithDegradation S (envelopeOf H input action snapshot admission) action
        (resolveDispatchPolicy action).hostKind
        { w with store := (S.get (legacyDispatchDedupeKey input.runId action.actionId
          input.basedOnOffset)).after w.store } with
    | error i w₁ =>
      rw [hreserve] at h
      cases h
    | ok r w₁ =>
      rw [hreserve] at h
      simp only at h
      obtain ⟨⟨more, hmore, hcalls⟩, hanswer⟩ := reserveWithDegradation_returned hreserve
      have hclears := clears_iff_accepted hfound hanswer
      by_cases haccepted : r.1.accepted = true
      · rw [if_neg (by simp [haccepted]), Call.bind_apply] at h
        cases hmirror : mirrorLegacy S r.2.1 r.2.2.1
            (buildTurnIdentity H input action (some snapshot.snapshotHash)).dispatchDedupeKey
            (legacyDispatchDedupeKey input.runId action.actionId input.basedOnOffset) w₁ with
        | error i w₂ =>
          rw [hmirror] at h
          cases h
        | ok aliasKey w₂ =>
          rw [hmirror] at h
          cases h
          obtain ⟨mirrored, hmirrored, hcalls'⟩ := mirrorLegacy_returned hmirror
          refine ⟨⟨more ++ mirrored, hmore.append hmirrored, ?_⟩, .inl ⟨hclears.mpr haccepted, ?_⟩⟩
          · rw [hcalls', hcalls, List.append_assoc]
          · exact ⟨⟨rfl, rfl, rfl, rfl, hctx.unfinished⟩, rfl, rfl⟩
      · rw [if_pos haccepted] at h
        cases h
        exact ⟨⟨more, hmore, hcalls⟩, .inr ⟨fun hc => haccepted (hclears.mp hc), _, rfl,
          blocked_decided H input action _ _ _⟩⟩

/-! ### The execution phase -/

/-- Whatever the executor does, a turn that returns from it has a decision, and the executor was
invoked last. -/
theorem execute_decided (hctx : Standing H input action snapshot ctx) (earlier : List PortCall) :
    Leaves (· = earlier) (phaseExecute S engine ports ctx)
      (fun ctx' calls => (∃ call, calls = earlier ++ [.execute call]) ∧
        ∃ result, ctx'.result = some result ∧ Decided input action result)
      (fun _ => True) := by
  have hfalls : ∀ calls, calls = earlier → True := fun _ _ => trivial
  refine leaves_assertSome_bind (fun chosen hchosen => ?_) hfalls
  refine leaves_assertSome_bind (fun built _ => ?_) hfalls
  refine leaves_assertSome_bind (fun ti hti => ?_) hfalls
  refine leaves_assertSome_bind (fun dp _ => ?_) hfalls
  refine leaves_assertSome_bind (fun envelope _ => ?_) hfalls
  rw [hctx.chosen] at hchosen
  rw [hctx.identified] at hti
  cases hchosen
  cases hti
  dsimp only
  generalize ExecutorCall.mk action built envelope _ = call
  have hexecute : Leaves (· = earlier) (executeWithContext ports call : Phase σ ExecuteResult)
      (fun _ calls => calls = earlier ++ [.execute call]) (fun _ => True) :=
    Leaves.bind (leaves_ask (fun calls h => by rw [h]))
      (fun _ => leaves_awaitPort (fun _ _ h => h) (fun _ _ => trivial))
  have hraised : ∀ e : PyError, Leaves (fun _ => True)
      (do
        markBoth ctx (exceptException (ofStore
          (S.markUnknownEffect (buildTurnIdentity H input action
            (some snapshot.snapshotHash)).dispatchDedupeKey)) (fun _ => pure ())) S.markUnknownEffect
        raise (.exception e) : Phase σ ExecuteResult)
      (fun _ calls => calls = earlier ++ [.execute call]) (fun _ => True) := by
    intro e
    exact Leaves.bind (markBoth_leaves leaves_suppressed) (fun _ => leaves_throw (fun _ _ => trivial))
  have hmark : ∀ x : Call PyError σ Unit,
      Leaves (· = earlier ++ [.execute call]) (ofStore x) (fun _ calls => calls = earlier ++ [.execute call])
        (· = earlier ++ [.execute call]) :=
    fun _ => leaves_ofStore (fun _ _ h => h) (fun _ h => h)
  refine Leaves.bind (hexecute.exceptException hraised (fun _ _ => trivial)) (fun executeResult => ?_)
  refine leaves_orRaise_bind (fun acknowledged => ?_) (fun _ _ => trivial)
  split
  · refine Leaves.bind ((markBoth_leaves (hmark _)).interrupted (fun _ _ => trivial)) (fun _ => ?_)
    refine leaves_pure (fun calls h => ⟨⟨call, h⟩, _, rfl, ?_⟩)
    rw [hctx.given]
    exact acknowledged_decided H input action _ _ _ _ _
  · refine Leaves.bind ((markBoth_leaves (hmark _)).interrupted (fun _ _ => trivial)) (fun _ => ?_)
    refine leaves_pure (fun calls h => ⟨⟨call, h⟩, _, rfl, ?_⟩)
    rw [hctx.given]
    exact recoveryPending_decided H input action _ _ _ _

end

/-! ### The turn -/

section
variable {σ : Type} {S : DedupeStorePort σ} {H : Digest} {engine : TurnEngine}
  {ports : TurnPhase → Ports} {input : TurnInput} {action : Action} {snapshot : CapabilitySnapshot}
  {ctx : TurnPhaseContext} {w w' : World σ} {result : TurnResult}

/-- What a turn that returned did past its snapshot. -/
structure Taken (S : DedupeStorePort σ) (H : Digest) (engine : TurnEngine) (ports : TurnPhase → Ports)
    (input : TurnInput) (action : Action) (snapshot : CapabilitySnapshot) (store : σ)
    (result : TurnResult) (calls : List PortCall) : Prop where
  decided : Decided input action result
  built : builtHash calls = some snapshot.snapshotHash
  executes : invoked calls = true ↔ ComesToExecutor S H engine ports input action store

theorem invoked_append (a b : List PortCall) : invoked (a ++ b) = (invoked a || invoked b) :=
  List.any_append

theorem builtHash_append (a b : List PortCall) : builtHash (a ++ b) = (builtHash a).or (builtHash b) :=
  List.findSome?_append

/-- From the executor on. -/
theorem runPhases_execute_returned (hctx : Standing H input action snapshot ctx)
    (h : runPhases S H engine ports [.execute] ctx w = .ok (.returned result) w') :
    Decided input action result ∧ ∃ call, w'.calls = w.calls ++ [.execute call] := by
  obtain ⟨ctx₁, w₁, hphase, hended, -⟩ := runPhases_returned h
  have hleaves : Leaves (· = w.calls) (phaseExecute S engine (ports .execute) ctx) _ _ :=
    execute_decided hctx w.calls
  have hdecided := hleaves w rfl
  change phaseExecute S engine (ports .execute) ctx w = _ at hphase
  rw [hphase] at hdecided
  obtain ⟨⟨call, hcalls⟩, result', hresult', hdecided⟩ := hdecided
  obtain ⟨rfl, rfl⟩ := hended _ hresult'
  exact ⟨hdecided, call, hcalls⟩

/-- From the dedupe phase on. -/
theorem runPhases_dedupe_returned {admission : AdmissionValue}
    (hctx : Standing H input action snapshot ctx) (hadmission : ctx.admissionResult = some admission)
    (hpolicy : ctx.dispatchPolicy = some (resolveDispatchPolicy action))
    (h : runPhases S H engine ports [.dedupe, .execute] ctx w = .ok (.returned result) w') :
    Decided input action result ∧ ∃ more, w'.calls = w.calls ++ more ∧ builtHash more = none ∧
      (invoked more = true ↔
        Clears S action (legacyDispatchDedupeKey input.runId action.actionId input.basedOnOffset)
          (envelopeOf H input action snapshot admission) w.store) := by
  obtain ⟨ctx₁, w₁, hphase, hended, hrest⟩ := runPhases_returned h
  obtain ⟨⟨more, hmore, hcalls⟩, hcleared⟩ := phaseDedupe_returned hctx hadmission hpolicy hphase
  rcases hcleared with ⟨hclears, hctx₁, -⟩ | ⟨hclears, result', hresult', hdecided⟩
  · obtain ⟨hdecided, call, hcalls'⟩ := runPhases_execute_returned hctx₁ (hrest hctx₁.unfinished)
    refine ⟨hdecided, more ++ [.execute call], ?_, ?_, ?_⟩
    · rw [hcalls', hcalls, List.append_assoc]
    · rw [builtHash_append, hmore.builtHash]
      rfl
    · rw [invoked_append, hmore.invoked]
      exact ⟨fun _ => hclears, fun _ => rfl⟩
  · obtain ⟨rfl, rfl⟩ := hended _ hresult'
    refine ⟨hdecided, more, hcalls, hmore.builtHash, ?_⟩
    rw [hmore.invoked]
    exact ⟨fun h => absurd h Bool.false_ne_true, fun h => absurd h hclears⟩

/-- From the policy on. -/
theorem runPhases_dispatchPolicy_returned {admission : AdmissionValue}
    (hctx : Standing H input action snapshot ctx) (hadmission : ctx.admissionResult = some admission)
    (h : runPhases S H engine ports [.dispatchPolicy, .dedupe, .execute] ctx w =
      .ok (.returned result) w') :
    Decided input action result ∧ ∃ more, w'.calls = w.calls ++ more ∧ builtHash more = none ∧
      (invoked more = true ↔ (resolveDispatchPolicy action).shouldBlock = false ∧
        Clears S action (legacyDispatchDedupeKey input.runId action.actionId input.basedOnOffset)
          (envelopeOf H input action snapshot admission) w.store) := by
  obtain ⟨ctx₁, w₁, hphase, hended, hrest⟩ := runPhases_returned h
  obtain ⟨rfl, hverdict⟩ := phaseDispatchPolicy_returned hctx hadmission hphase
  by_cases hblock : (resolveDispatchPolicy action).shouldBlock
  · rw [if_pos hblock] at hverdict
    obtain ⟨result', hresult', hdecided⟩ := hverdict
    obtain ⟨rfl, rfl⟩ := hended _ hresult'
    refine ⟨hdecided, [], (List.append_nil _).symm, rfl, ?_⟩
    rw [hblock]
    exact ⟨fun h => absurd h Bool.false_ne_true, fun h => absurd h.1.symm Bool.false_ne_true⟩
  · rw [if_neg hblock] at hverdict
    obtain ⟨hctx₁, hadmission₁, hpolicy₁⟩ := hverdict
    rw [Bool.not_eq_true] at hblock
    obtain ⟨hdecided, more, hcalls, hbuilt, hinvoked⟩ :=
      runPhases_dedupe_returned hctx₁ hadmission₁ hpolicy₁ (hrest hctx₁.unfinished)
    refine ⟨hdecided, more, hcalls, hbuilt, ?_⟩
    rw [hinvoked, hblock]
    exact ⟨fun h => ⟨rfl, h⟩, And.right⟩

/-- From the admission on. -/
theorem runPhases_admission_returned {store : σ}
    (hbuild : buildSnapshot engine (ports .snapshot) input action = .ok snapshot)
    (hctx : Standing H input action snapshot ctx)
    (h : runPhases S H engine ports [.admission, .dispatchPolicy, .dedupe, .execute] ctx
      { store := store } = .ok (.returned result) w') :
    Taken S H engine ports input action snapshot store result w'.calls := by
  obtain ⟨ctx₁, w₁, hphase, hended, hrest⟩ := runPhases_returned h
  obtain ⟨admission, admitted, hanswer, hadmitted, rfl, hverdict⟩ := phaseAdmission_returned hctx hphase
  -- the turn's own snapshot and admission are the ones it comes to the executor with
  have hown : ComesToExecutor S H engine ports input action store ↔ admitted = true ∧
      (resolveDispatchPolicy action).shouldBlock = false ∧
      Clears S action (legacyDispatchDedupeKey input.runId action.actionId input.basedOnOffset)
        (envelopeOf H input action snapshot admission) store := by
    constructor
    · rintro ⟨snapshot', admission', hbuild', hanswer', hadmitted', hopen⟩
      rw [hbuild] at hbuild'
      cases hbuild'
      rw [hanswer] at hanswer'
      cases hanswer'
      rw [hadmitted] at hadmitted'
      cases hadmitted'
      exact ⟨rfl, hopen⟩
    · rintro ⟨rfl, hopen⟩
      exact ⟨snapshot, admission, hbuild, hanswer, hadmitted, hopen⟩
  cases admitted with
  | false =>
    obtain ⟨result', hresult', hdecided⟩ := hverdict
    obtain ⟨rfl, rfl⟩ := hended _ hresult'
    refine ⟨hdecided, rfl, ?_⟩
    rw [hown]
    exact ⟨fun h => absurd h Bool.false_ne_true, fun h => absurd h.1 Bool.false_ne_true⟩
  | true =>
    obtain ⟨hctx₁, hadmission₁⟩ := hverdict
    obtain ⟨hdecided, more, hcalls, hbuilt, hinvoked⟩ :=
      runPhases_dispatchPolicy_returned hctx₁ hadmission₁ (hrest hctx₁.unfinished)
    refine ⟨hdecided, ?_, ?_⟩
    · rw [hcalls, builtHash_append]
      rfl
    · rw [hcalls, invoked_append, hown]
      change invoked more = true ↔ _
      rw [hinvoked]
      exact ⟨fun h => ⟨rfl, h⟩, And.right⟩

/-- **A turn that returned.** Either its snapshot could not be built, it asked nothing of anyone and
its result is a noop; or its admission was asked about the snapshot that was built, its result
carries the turn's fingerprint and the executor was invoked exactly if the turn comes to it. -/
theorem runTurn_returned {store : σ}
    (h : runTurn S H engine ports input (some action) { store := store } = .ok (.returned result) w) :
    ((∀ snapshot, buildSnapshot engine (ports .snapshot) input action ≠ .ok snapshot) ∧
      result.outcomeKind = .noop ∧ w.calls = []) ∨
    ∃ snapshot, buildSnapshot engine (ports .snapshot) input action = .ok snapshot ∧
      Taken S H engine ports input action snapshot store result w.calls := by
  obtain ⟨ctx₁, w₁, hphase, -, hrest⟩ := runPhases_returned h
  simp only [phase] at hphase
  obtain ⟨rfl, rfl⟩ := phaseNoopOrReasoning_returned rfl hphase
  obtain ⟨ctx₂, w₂, hphase, hended, hrest⟩ := runPhases_returned (hrest rfl)
  simp only [phase] at hphase
  obtain ⟨rfl, hsnapshot⟩ := phaseSnapshot_returned rfl rfl rfl hphase
  rcases hsnapshot with ⟨snapshot, hbuild, hctx⟩ | ⟨hfailed, events, hnoop⟩
  · exact .inr ⟨snapshot, hbuild, runPhases_admission_returned hbuild hctx (hrest hctx.unfinished)⟩
  · obtain ⟨rfl, rfl⟩ := hended _ hnoop
    exact .inl ⟨hfailed, rfl, rfl⟩

end

end AgentKernel.Turns.Phases
