import AgentKernel.Turns.Phases

/-! The path of a turn.

Whatever its ports do, a turn that returns has followed the state machine of the engine:
`Ending` lists how a path may end, and `Legal` says what a result and the calls made for it
have to do with the path. The loop never runs out of phases, and an action that is not an
idempotent write is not executed when the reservation under its envelope's key raised
(`run_turn_legal`). The reservation mirrored under the historical key is another matter:
it is made for other readers, and what it raises is dropped (`mirror_raise_executed`). -/
namespace AgentKernel.Turns.Phases
open Lib Dedupe

/-! ### Paths -/

def states (events : List TurnStateEvent) : List TurnState := events.map (·.state)

/-- How every path begins, with or without the reasoning loop. -/
def opening (reasoned : Bool) : List TurnState :=
  [.collecting, .intentCommitted] ++ if reasoned then [.reasoning] else []

/-- The way to a dispatch, with or without the dedupe store. -/
def dispatching (degraded : Bool) : List TurnState :=
  [.snapshotBuilt, .admissionChecked] ++ (if degraded then [.dedupeDegraded] else []) ++ [.dispatched]

/-- How a path may end after its opening. -/
inductive Ending (reasoned : Bool) : List TurnState → Prop where
  | noop : Ending reasoned [.completedNoop]
  | reasoningFailed (h : reasoned = true) : Ending reasoned [.reasoningFailed, .completedNoop]
  | blocked : Ending reasoned [.snapshotBuilt, .admissionChecked, .dispatchBlocked]
  | acknowledged (degraded : Bool) : Ending reasoned (dispatching degraded ++ [.dispatchAcknowledged])
  | effectUnknown (degraded : Bool) :
      Ending reasoned (dispatching degraded ++ [.effectUnknown, .recoveryPending])

def PortCall.admits : PortCall → Bool
  | .admitAction _ _ => true
  | _ => false

def PortCall.executes : PortCall → Bool
  | .execute _ => true
  | _ => false

def admissions (calls : List PortCall) : Nat := calls.countP PortCall.admits

def executions (calls : List PortCall) : Nat := calls.countP PortCall.executes

/-- The result ends a path, and the calls are those the path tells of. -/
structure Legal (result : TurnResult) (calls : List PortCall) : Prop where
  path : ∃ reasoned rest, Ending reasoned rest ∧
    states result.emittedEvents = opening reasoned ++ rest
  last : (states result.emittedEvents).getLast? = some result.state
  dispatchedOnce : (states result.emittedEvents).count .dispatched ≤ 1
  executed : executions calls = if .dispatched ∈ states result.emittedEvents then 1 else 0
  admittedOnce : admissions calls ≤ 1

/-- What is executed without an idempotent effect is reserved under its key, as far as the
store can tell: no reservation under that key raised. -/
def Reserved (calls : List PortCall) : Prop :=
  ∀ call, .execute call ∈ calls → call.action.effectClass ≠ .idempotentWrite →
    .reserveAndDispatch call.envelope.dispatchIdempotencyKey true ∉ calls

theorem reserved_of_unexecuted {calls : List PortCall} (h : executions calls = 0) : Reserved calls := by
  intro call hcall
  have hnone := List.countP_eq_zero.mp h _ hcall
  exact absurd rfl hnone

theorem states_append (a b : List TurnStateEvent) : states (a ++ b) = states a ++ states b :=
  List.map_append

theorem Ending.dispatched {reasoned : Bool} {rest : List TurnState} (h : Ending reasoned rest) :
    (opening reasoned ++ rest).count .dispatched ≤ 1 ∧
      (.dispatched ∈ opening reasoned ++ rest ↔ .dispatched ∈ rest) := by
  have hopening : (opening reasoned).count .dispatched = 0 ∧ .dispatched ∉ opening reasoned := by
    cases reasoned <;> decide
  refine ⟨?_, by simp [hopening.2]⟩
  rw [List.count_append, hopening.1]
  cases h with
  | noop | reasoningFailed | blocked => decide
  | acknowledged degraded => cases degraded <;> decide
  | effectUnknown degraded => cases degraded <;> decide

/-- A result that carries a path to its end is legal if its calls are. -/
theorem legal_of_ending {reasoned : Bool} {rest : List TurnState} (hending : Ending reasoned rest)
    {result : TurnResult} (hstates : states result.emittedEvents = opening reasoned ++ rest)
    (hlast : rest.getLast? = some result.state) {calls : List PortCall}
    (hexecuted : executions calls = if .dispatched ∈ rest then 1 else 0)
    (hadmitted : admissions calls ≤ 1) : Legal result calls := by
  obtain ⟨hcount, hmem⟩ := hending.dispatched
  refine ⟨⟨reasoned, rest, hending, hstates⟩, ?_, ?_, ?_, hadmitted⟩
  · rw [hstates, List.getLast?_append, hlast]
    rfl
  · rw [hstates]
    exact hcount
  · rw [hstates, hexecuted]
    simp only [hmem]

/-! ### What a phase leaves in the calls -/

section
variable {σ α β : Type}

/-- From calls with `P` the phase returns with `Q` or is interrupted with `R`. -/
def Leaves (P : List PortCall → Prop) (x : Phase σ α) (Q : α → List PortCall → Prop)
    (R : List PortCall → Prop) : Prop :=
  Call.Ends (fun w => P w.calls) x (fun a w => Q a w.calls) (fun _ w => R w.calls)

variable {P : List PortCall → Prop} {Q : α → List PortCall → Prop} {R : List PortCall → Prop}

theorem leaves_pure {a : α} (h : ∀ calls, P calls → Q a calls) :
    Leaves P (pure a : Phase σ α) Q R :=
  Call.ends_pure (fun w hw => h w.calls hw)

theorem leaves_throw {i : Interrupt} (h : ∀ calls, P calls → R calls) :
    Leaves P (throw i : Phase σ α) Q R :=
  Call.ends_throw (fun w hw => h w.calls hw)

theorem Leaves.bind {M : β → List PortCall → Prop} {x : Phase σ β} {f : β → Phase σ α}
    (h : Leaves P x M R) (hf : ∀ b, Leaves (M b) (f b) Q R) : Leaves P (x >>= f) Q R :=
  Call.Ends.bind h hf

theorem Leaves.weaken {P' : List PortCall → Prop} {x : Phase σ α} (h : Leaves P x Q R)
    (hP : ∀ calls, P' calls → P calls) : Leaves P' x Q R :=
  fun w hw => h w (hP w.calls hw)

theorem Leaves.interrupted {R' : List PortCall → Prop} {x : Phase σ α} (h : Leaves P x Q R)
    (hR : ∀ calls, R calls → R' calls) : Leaves P x Q R' :=
  Call.Ends.mono h (fun _ hw => hw) (fun _ _ hw => hw) (fun _ w hw => hR w.calls hw)

theorem leaves_ask {c : PortCall} {Q : Unit → List PortCall → Prop}
    (h : ∀ calls, P calls → Q () (calls ++ [c])) : Leaves P (ask c : Phase σ Unit) Q R :=
  fun w hw => h w.calls hw

theorem leaves_assertSome_bind {x : Option β} {f : β → Phase σ α}
    (h : ∀ b, x = some b → Leaves P (f b) Q R) (hr : ∀ calls, P calls → R calls) :
    Leaves P (assertSome x >>= f) Q R := by
  cases x with
  | none => exact leaves_throw hr
  | some b => exact h b rfl

theorem leaves_orRaise_bind {x : Except Raised β} {f : β → Phase σ α}
    (h : ∀ b, Leaves P (f b) Q R) (hr : ∀ calls, P calls → R calls) :
    Leaves P (orRaise x >>= f) Q R := by
  cases x with
  | ok b => exact h b
  | error r => exact leaves_throw hr

theorem leaves_awaitPort {x : Awaited α} (h : ∀ a calls, P calls → Q a calls)
    (hr : ∀ calls, P calls → R calls) : Leaves P (awaitPort x : Phase σ α) Q R := by
  cases x with
  | returned a => exact leaves_pure (h a)
  | raised r => exact leaves_throw hr
  | timedOut => exact leaves_throw hr

theorem leaves_ofStore {x : Call PyError σ α} (h : ∀ a calls, P calls → Q a calls)
    (hr : ∀ calls, P calls → R calls) : Leaves P (ofStore x) Q R := by
  intro w hw
  unfold ofStore
  cases x w.store with
  | ok a s => exact h a w.calls hw
  | error e s => exact hr w.calls hw

theorem Leaves.exceptException {M : List PortCall → Prop} {x : Phase σ α} {handle : PyError → Phase σ α}
    (h : Leaves P x Q M) (hh : ∀ e, Leaves M (handle e) Q R) (hr : ∀ calls, M calls → R calls) :
    Leaves P (exceptException x handle) Q R := by
  refine Call.Ends.tryCatch h (fun i => ?_)
  split
  · exact hh _
  · exact Call.ends_throw (fun w hw => hr w.calls hw)

/-- A store call whose errors are dropped asks for nothing that counts. -/
theorem leaves_suppressed {x : Call PyError σ α} {a : α} :
    Leaves P (exceptException (ofStore x) (fun _ => pure a)) (fun _ => P) P :=
  (leaves_ofStore (fun _ _ h => h) (fun _ h => h)).exceptException
    (fun _ => leaves_pure (fun _ h => h)) (fun _ h => h)

theorem leaves_reserveAndDispatch {S : DedupeStorePort σ} {envelope : IdempotencyEnvelope}
    {peer : Option String} {Q : DedupeReservation → List PortCall → Prop}
    (h : ∀ r calls, P calls →
      Q r (calls ++ [.reserveAndDispatch envelope.dispatchIdempotencyKey false]))
    (hr : ∀ calls, P calls → R (calls ++ [.reserveAndDispatch envelope.dispatchIdempotencyKey true])) :
    Leaves P (Phases.reserveAndDispatch S envelope peer) Q R := by
  have hcall : Leaves P (ofStore (S.reserveAndDispatch envelope peer)) (fun _ => P) P :=
    leaves_ofStore (fun _ _ hcalls => hcalls) (fun _ hcalls => hcalls)
  have hmade : Leaves P
      (do
        let reservation ← ofStore (S.reserveAndDispatch envelope peer)
        ask (.reserveAndDispatch envelope.dispatchIdempotencyKey false)
        pure reservation) Q P :=
    Leaves.bind hcall (fun r => Leaves.bind (leaves_ask (h r))
      (fun _ => leaves_pure (fun _ hcalls => hcalls)))
  have hraised : ∀ i, Leaves P
      (do
        ask (.reserveAndDispatch envelope.dispatchIdempotencyKey true)
        throw i : Phase σ DedupeReservation) Q R :=
    fun i => Leaves.bind (leaves_ask hr) (fun _ => leaves_throw (fun _ hcalls => hcalls))
  exact Call.Ends.tryCatch hmade hraised

end

/-! ### Where a turn stands before a phase -/

/-- What a path shows before a phase, after its opening. -/
def shown : TurnPhase → Bool → List TurnState
  | .noopOrReasoning, _ | .snapshot, _ => []
  | .admission, _ => [.snapshotBuilt]
  | .dispatchPolicy, _ | .dedupe, _ => [.snapshotBuilt, .admissionChecked]
  | .execute, degraded => dispatching degraded

/-- How often admission may have been consulted before a phase. -/
def consulted : TurnPhase → Nat
  | .noopOrReasoning | .snapshot | .admission => 0
  | .dispatchPolicy | .dedupe | .execute => 1

def Unreserved (calls : List PortCall) : Prop := ∀ key raised, .reserveAndDispatch key raised ∉ calls

/-- The path shows what it should before a phase, and nothing was executed. -/
structure OnPath (p : TurnPhase) (reasoned : Bool) (ctx : TurnPhaseContext) (calls : List PortCall) :
    Prop where
  unfinished : ctx.result = none
  path : ∃ degraded, states ctx.emittedEvents = opening reasoned ++ shown p degraded
  unexecuted : executions calls = 0
  admitted : admissions calls ≤ consulted p

structure Before (p : TurnPhase) (reasoned : Bool) (ctx : TurnPhaseContext) (calls : List PortCall) :
    Prop extends OnPath p reasoned ctx calls where
  unreserved : p ≠ .execute → Unreserved calls
  reserved : p = .execute → ∀ action envelope, ctx.action = some action →
    ctx.envelope = some envelope → action.effectClass ≠ .idempotentWrite →
    .reserveAndDispatch envelope.dispatchIdempotencyKey true ∉ calls

/-- The turn ended with a legal result. -/
def Finished (ctx : TurnPhaseContext) (calls : List PortCall) : Prop :=
  ∃ result, ctx.result = some result ∧ Legal result calls ∧ Reserved calls

/-- The turn ended, or stands before the next phase. -/
def After (next : TurnPhase) (ctx : TurnPhaseContext) (calls : List PortCall) : Prop :=
  (∃ reasoned, Before next reasoned ctx calls) ∨ Finished ctx calls

section
variable {p : TurnPhase} {reasoned : Bool} {ctx : TurnPhaseContext} {calls : List PortCall}

/-- A turn that ends before it dispatches anything. -/
theorem OnPath.conclude (h : OnPath p reasoned ctx calls) {events : List TurnStateEvent}
    {rest : List TurnState} (hrest : ∀ degraded, shown p degraded ++ states events = rest)
    (hending : Ending reasoned rest) (hundispatched : .dispatched ∉ rest)
    {result : List TurnStateEvent → TurnResult} (hevents : ∀ all, (result all).emittedEvents = all)
    (hlast : ∀ all, rest.getLast? = some (result all).state) :
    Finished (ctx.conclude events result) calls := by
  obtain ⟨degraded, hpath⟩ := h.path
  have hstates : states (result (ctx.emit events).emittedEvents).emittedEvents =
      opening reasoned ++ rest := by
    rw [hevents]
    show states (ctx.emittedEvents ++ events) = _
    rw [states_append, hpath, List.append_assoc, hrest]
  have hadmitted : admissions calls ≤ 1 := by
    have hp : consulted p ≤ 1 := by cases p <;> decide
    exact Nat.le_trans h.admitted hp
  refine ⟨_, rfl, legal_of_ending hending hstates (hlast _) ?_ hadmitted, ?_⟩
  · rw [if_neg hundispatched]
    exact h.unexecuted
  · exact reserved_of_unexecuted h.unexecuted

/-- A turn that goes on with what a phase left in its context. -/
theorem Before.next (h : Before p reasoned ctx calls) {q : TurnPhase} (hp : p ≠ .execute)
    (hq : q ≠ .execute) (hconsulted : consulted p ≤ consulted q) {ctx' : TurnPhaseContext}
    (hresult : ctx'.result = none) {events : List TurnStateEvent}
    (hevents : ctx'.emittedEvents = ctx.emittedEvents ++ events)
    (hshown : shown p false ++ states events = shown q false) : Before q reasoned ctx' calls := by
  have hdegraded : ∀ {p}, p ≠ .execute → ∀ degraded, shown p degraded = shown p false := by
    intro p hp degraded
    cases p with
    | execute => exact absurd rfl hp
    | noopOrReasoning | snapshot | admission | dispatchPolicy | dedupe => rfl
  obtain ⟨degraded, hpath⟩ := h.path
  refine ⟨⟨hresult, ⟨false, ?_⟩, h.unexecuted, Nat.le_trans h.admitted hconsulted⟩,
    fun _ => h.unreserved hp, fun hexecute => absurd hexecute hq⟩
  rw [hevents, states_append, hpath, hdegraded hp, List.append_assoc, hshown]

theorem Before.asked (h : Before p reasoned ctx calls) (hp : p ≠ .execute) {c : PortCall}
    (hadmits : c.admits = false) (hexecutes : c.executes = false)
    (hreserves : ∀ key raised, c ≠ .reserveAndDispatch key raised) :
    Before p reasoned ctx (calls ++ [c]) := by
  refine ⟨⟨h.unfinished, h.path, ?_, ?_⟩, fun _ key raised hmem => ?_,
    fun hexecute => absurd hexecute hp⟩
  · rw [executions, List.countP_append, List.countP_singleton, if_neg (by simp [hexecutes])]
    exact h.unexecuted
  · rw [admissions, List.countP_append, List.countP_singleton, if_neg (by simp [hadmits])]
    exact h.admitted
  · rcases List.mem_append.mp hmem with hold | hnew
    · exact h.unreserved hp key raised hold
    · exact hreserves key raised (List.mem_singleton.mp hnew).symm

end

/-! ### The phases before the executor -/

def Unexecuted (calls : List PortCall) : Prop := executions calls = 0

section
variable {σ : Type} {S : DedupeStorePort σ} {H : Digest} {engine : TurnEngine} {ports : Ports}
  {reasoned : Bool} {ctx : TurnPhaseContext}

theorem Before.after {p next : TurnPhase} {calls : List PortCall} (h : Before p reasoned ctx calls)
    (hp : p ≠ .execute) (hnext : next ≠ .execute) (hconsulted : consulted p ≤ consulted next)
    {ctx' : TurnPhaseContext} (hresult : ctx'.result = none) {events : List TurnStateEvent}
    (hevents : ctx'.emittedEvents = ctx.emittedEvents ++ events)
    (hshown : shown p false ++ states events = shown next false) : After next ctx' calls :=
  .inl ⟨reasoned, h.next hp hnext hconsulted hresult hevents hshown⟩

theorem noActionFound_finished {calls : List PortCall} (h : Before .snapshot reasoned ctx calls) :
    Finished (noActionFound ctx []) calls :=
  h.conclude (fun _ => rfl) .noop (by decide) (fun _ => rfl) (fun _ => rfl)

theorem noopOrReasoning_leaves :
    Leaves (Before .noopOrReasoning false ctx)
      (phaseNoopOrReasoning engine ports ctx : Phase σ TurnPhaseContext) (After .snapshot) Unexecuted := by
  unfold phaseNoopOrReasoning
  split
  · refine leaves_pure (fun calls h => ?_)
    exact h.after (by decide) (by decide) (by decide) h.unfinished (List.append_nil _).symm rfl
  split
  · refine leaves_pure (fun calls h => .inr ?_)
    exact h.conclude (fun _ => rfl) .noop (by decide) (fun _ => rfl) (fun _ => rfl)
  · -- From here on the path has the reasoning state.
    let ctx' := ctx.emit [{ state := .reasoning }]
    have hreasoning : ∀ calls, Before .noopOrReasoning false ctx calls → Before .snapshot true ctx' calls := by
      intro calls h
      obtain ⟨degraded, hpath⟩ := h.path
      refine ⟨⟨h.unfinished, ⟨false, ?_⟩, h.unexecuted, h.admitted⟩, fun _ => h.unreserved (by decide),
        (fun hexecute => nomatch hexecute)⟩
      show states (ctx.emittedEvents ++ [{ state := .reasoning }]) = _
      rw [states_append, hpath]
      rfl
    have hreason : Leaves (Before .snapshot true ctx') (reason engine ports ctx' : Phase σ (List Action))
        (fun _ => Before .snapshot true ctx') (Before .snapshot true ctx') := by
      refine leaves_orRaise_bind (fun snapshot => ?_) (fun _ h => h)
      refine Leaves.bind (leaves_ask (fun calls h => ?_)) (fun _ =>
        leaves_awaitPort (fun _ _ h => h) (fun _ h => h))
      exact h.asked (by decide) rfl rfl (fun _ _ hc => nomatch hc)
    have hfailed : ∀ e : PyError, Leaves (Before .snapshot true ctx')
        (pure (noActionFound ctx' [{ state := .reasoningFailed }]) : Phase σ TurnPhaseContext)
        (After .snapshot) Unexecuted := by
      refine fun _ => leaves_pure (fun calls h => .inr ?_)
      have hrest : ∀ degraded, shown .snapshot degraded ++
          states [{ state := .reasoningFailed }, { state := .completedNoop }] =
            [.reasoningFailed, .completedNoop] := fun _ => rfl
      exact h.conclude hrest (.reasoningFailed rfl) (by decide) (fun _ => rfl) (fun _ => rfl)
    refine Leaves.weaken (Leaves.exceptException (M := Before .snapshot true ctx') ?_ hfailed
      (fun _ h => h.unexecuted)) hreasoning
    refine Leaves.bind hreason (fun actions => ?_)
    split
    · exact leaves_pure (fun _ h => .inr (noActionFound_finished h))
    · refine leaves_pure (fun calls h => ?_)
      exact h.after (by decide) (by decide) (by decide) h.unfinished (List.append_nil _).symm rfl

theorem snapshot_leaves :
    Leaves (Before .snapshot reasoned ctx) (phaseSnapshot H engine ports ctx : Phase σ TurnPhaseContext)
      (After .admission) Unexecuted := by
  refine leaves_assertSome_bind (fun action _ => ?_) (fun _ h => h.unexecuted)
  split
  · refine leaves_pure (fun calls h => ?_)
    exact h.after (by decide) (by decide) (by decide) h.unfinished rfl rfl
  · split
    · refine leaves_pure (fun calls h => .inr ?_)
      exact h.conclude (fun _ => rfl) .noop (by decide) (fun _ => rfl) (fun _ => rfl)
    · exact leaves_throw (fun _ h => h.unexecuted)
  · exact leaves_throw (fun _ h => h.unexecuted)

theorem admission_leaves :
    Leaves (Before .admission reasoned ctx) (phaseAdmission engine ports ctx : Phase σ TurnPhaseContext)
      (After .dispatchPolicy) Unexecuted := by
  refine leaves_assertSome_bind (fun action _ => ?_) (fun _ h => h.unexecuted)
  refine leaves_assertSome_bind (fun snapshot _ => ?_) (fun _ h => h.unexecuted)
  refine leaves_assertSome_bind (fun ti _ => ?_) (fun _ h => h.unexecuted)
  let checked := ctx.emit [{ state := .admissionChecked }]
  -- The service is consulted once, however that ends.
  have hconsult : ∀ calls, Before .admission reasoned ctx calls →
      Before .dispatchPolicy reasoned checked (calls ++ [.admitAction action snapshot]) := by
    intro calls h
    have hchecked : Before .dispatchPolicy reasoned checked calls :=
      h.next (by decide) (by decide) (by decide) h.unfinished rfl rfl
    refine ⟨⟨hchecked.unfinished, hchecked.path, ?_, ?_⟩, fun _ key raised hmem => ?_,
      (fun hexecute => nomatch hexecute)⟩
    · rw [executions, List.countP_append]
      exact h.unexecuted
    · have hnone : admissions calls ≤ 0 := h.admitted
      rw [admissions, List.countP_append]
      exact Nat.add_le_add_right hnone 1
    · rcases List.mem_append.mp hmem with hold | hnew
      · exact h.unreserved (by decide) key raised hold
      · cases List.mem_singleton.mp hnew
  have hadmission : Leaves (Before .admission reasoned ctx)
      (evaluateAdmission engine ports action snapshot : Phase σ AdmissionValue)
      (fun _ => Before .dispatchPolicy reasoned checked) Unexecuted := by
    unfold evaluateAdmission
    split
    · exact Leaves.bind (leaves_ask hconsult) (fun _ =>
        leaves_awaitPort (fun _ _ h => h) (fun _ h => h.unexecuted))
    · exact leaves_throw (fun _ h => h.unexecuted)
  refine Leaves.bind hadmission (fun admissionResult => ?_)
  refine leaves_orRaise_bind (fun admitted => ?_) (fun _ h => h.unexecuted)
  dsimp only
  split
  · refine leaves_pure (fun calls h => .inl ⟨reasoned, ?_⟩)
    exact h.next (by decide) (by decide) (Nat.le_refl _) h.unfinished (List.append_nil _).symm rfl
  · refine leaves_pure (fun calls h => .inr ?_)
    exact h.conclude (fun _ => rfl) .blocked (by decide) (fun _ => rfl) (fun _ => rfl)

theorem dispatchPolicy_leaves :
    Leaves (Before .dispatchPolicy reasoned ctx) (phaseDispatchPolicy ctx : Phase σ TurnPhaseContext)
      (After .dedupe) Unexecuted := by
  refine leaves_assertSome_bind (fun action _ => ?_) (fun _ h => h.unexecuted)
  refine leaves_assertSome_bind (fun ti _ => ?_) (fun _ h => h.unexecuted)
  dsimp only
  split
  · refine leaves_pure (fun calls h => .inr ?_)
    have hrest : ∀ degraded, shown .dispatchPolicy degraded ++
        states [{ state := .dispatchBlocked, reason := (resolveDispatchPolicy action).blockReason }] =
          [.snapshotBuilt, .admissionChecked, .dispatchBlocked] := fun _ => rfl
    exact h.conclude hrest .blocked (by decide) (fun _ => rfl) (fun _ => rfl)
  · refine leaves_pure (fun calls h => ?_)
    exact h.after (by decide) (by decide) (by decide) h.unfinished (List.append_nil _).symm rfl

/-! ### The dedupe phase -/

/-- Where a turn stands once the store was asked for its slot: what the store answered or the
degraded mode stands in for, and what that adds to the path. -/
structure Answered (action : Action) (key : String) (ctx : TurnPhaseContext) (reasoned : Bool)
    (r : DedupeReservation × IdempotencyEnvelope × Bool × List TurnStateEvent)
    (calls : List PortCall) : Prop extends OnPath .dedupe reasoned ctx calls where
  underKey : r.2.1.dispatchIdempotencyKey = key
  events : r.2.2.2 = [] ∨ r.1.accepted = true ∧ states r.2.2.2 = [.dedupeDegraded]
  reserved : action.effectClass ≠ .idempotentWrite → .reserveAndDispatch key true ∉ calls

/-- One more reservation is no admission and no execution. -/
theorem OnPath.reservation {p : TurnPhase} {calls : List PortCall} (h : OnPath p reasoned ctx calls)
    (key : String) (raised : Bool) :
    OnPath p reasoned ctx (calls ++ [.reserveAndDispatch key raised]) := by
  refine ⟨h.unfinished, h.path, ?_, ?_⟩
  · rw [executions, List.countP_append]
    exact h.unexecuted
  · rw [admissions, List.countP_append]
    exact h.admitted

theorem reserveWithDegradation_leaves {action : Action} {envelope : IdempotencyEnvelope}
    {hostKind : HostKind} :
    Leaves (Before .dedupe reasoned ctx) (reserveWithDegradation S envelope action hostKind)
      (Answered action envelope.dispatchIdempotencyKey ctx reasoned) Unexecuted := by
  have hunraised : ∀ {calls}, Before .dedupe reasoned ctx calls → ∀ key raised,
      .reserveAndDispatch key raised ∉ calls := fun h => h.unreserved (by decide)
  have hmade : Leaves (Before .dedupe reasoned ctx)
      (do
        let reservation ← reserveAndDispatch S envelope none
        pure (reservation, envelope, true, ([] : List TurnStateEvent)))
      (Answered action envelope.dispatchIdempotencyKey ctx reasoned)
      (OnPath .dedupe reasoned ctx) := by
    refine Leaves.bind (M := fun _ => Answered action envelope.dispatchIdempotencyKey ctx reasoned
      (.granted, envelope, true, [])) (leaves_reserveAndDispatch (fun r calls h => ?_)
        (fun calls h => h.reservation _ _)) (fun r => leaves_pure (fun calls h => ?_))
    · refine ⟨h.reservation _ _, rfl, .inl rfl, fun _ hmem => ?_⟩
      rcases List.mem_append.mp hmem with hold | hnew
      · exact hunraised h _ _ hold
      · cases List.mem_singleton.mp hnew
    · exact ⟨h.toOnPath, rfl, .inl rfl, h.reserved⟩
  refine hmade.exceptException (fun e => ?_) (fun _ h => h.unexecuted)
  split
  · exact leaves_throw (fun _ h => h.unexecuted)
  · rename_i heffect
    refine leaves_pure (fun calls h => ?_)
    exact ⟨h, rfl, .inr ⟨rfl, rfl⟩, fun hne => absurd hne heffect⟩

theorem legacyLookup_leaves {key legacyKey : String} :
    Leaves (Before .dedupe reasoned ctx) (legacyLookup S key legacyKey)
      (fun _ => Before .dedupe reasoned ctx) Unexecuted := by
  unfold legacyLookup
  split
  · exact leaves_suppressed.interrupted (fun _ h => h.unexecuted)
  · exact leaves_pure (fun _ h => h)

theorem mirrorLegacy_leaves {action : Action} {key legacyKey : String}
    {r : DedupeReservation × IdempotencyEnvelope × Bool × List TurnStateEvent} :
    Leaves (Answered action key ctx reasoned r) (mirrorLegacy S r.2.1 r.2.2.1 key legacyKey)
      (fun _ => Answered action key ctx reasoned r) Unexecuted := by
  unfold mirrorLegacy
  split
  · rename_i hmirrored
    have hreserved : ∀ raised calls, Answered action key ctx reasoned r calls →
        Answered action key ctx reasoned r (calls ++ [.reserveAndDispatch legacyKey raised]) := by
      intro raised calls h
      refine ⟨h.reservation _ _, h.underKey, h.events, fun hne hmem => ?_⟩
      rcases List.mem_append.mp hmem with hold | hnew
      · exact h.reserved hne hold
      · cases List.mem_singleton.mp hnew
        exact hmirrored.2 rfl
    have hmade : Leaves (Answered action key ctx reasoned r)
        (do
          let reservation ← reserveAndDispatch S { r.2.1 with dispatchIdempotencyKey := legacyKey }
            r.2.1.peerOperationId
          pure (if reservation.accepted then some legacyKey else none))
        (fun _ => Answered action key ctx reasoned r) (Answered action key ctx reasoned r) :=
      Leaves.bind (leaves_reserveAndDispatch (fun _ => hreserved false) (hreserved true))
        (fun _ => leaves_pure (fun _ h => h))
    exact hmade.exceptException (fun _ => leaves_pure (fun _ h => h)) (fun _ h => h.unexecuted)
  · exact leaves_pure (fun _ h => h)

theorem dedupe_leaves :
    Leaves (Before .dedupe reasoned ctx) (phaseDedupe S ctx) (After .execute) Unexecuted := by
  refine leaves_assertSome_bind (fun action haction => ?_) (fun _ h => h.unexecuted)
  refine leaves_assertSome_bind (fun snapshot _ => ?_) (fun _ h => h.unexecuted)
  refine leaves_assertSome_bind (fun ti _ => ?_) (fun _ h => h.unexecuted)
  refine leaves_assertSome_bind (fun dp _ => ?_) (fun _ h => h.unexecuted)
  dsimp only
  generalize legacyDispatchDedupeKey ctx.input.runId action.actionId ctx.input.basedOnOffset = legacyKey
  refine Leaves.bind legacyLookup_leaves (fun legacyRecord => ?_)
  split
  · refine leaves_pure (fun calls h => .inr ?_)
    exact h.conclude (fun _ => rfl) .blocked (by decide) (fun _ => rfl) (fun _ => rfl)
  refine Leaves.bind reserveWithDegradation_leaves (fun r => ?_)
  rw [resolveIdempotencyEnvelope_key]
  obtain ⟨reservation, envelope, dedupeAvailable, events⟩ := r
  dsimp only
  split
  · -- A refusal comes from the store, so nothing was degraded.
    rename_i hrefused
    refine leaves_pure (fun calls h => .inr ?_)
    have hevents : events = [] := by
      rcases h.events with hnone | hdegraded
      · exact hnone
      · exact absurd hdegraded.1 hrefused
    subst hevents
    have hsame : OnPath .dedupe reasoned
        ({ ctx with envelope := some envelope, dedupeAvailable := dedupeAvailable }.emit []) calls := by
      refine ⟨h.unfinished, ?_, h.unexecuted, h.admitted⟩
      show ∃ degraded, states (ctx.emittedEvents ++ []) = _
      rw [List.append_nil]
      exact h.path
    exact hsame.conclude (fun _ => rfl) .blocked (by decide) (fun _ => rfl) (fun _ => rfl)
  · refine Leaves.bind (mirrorLegacy_leaves (r := (reservation, envelope, dedupeAvailable, events)))
      (fun aliasKey => leaves_pure (fun calls h => .inl ⟨reasoned, ?_⟩))
    obtain ⟨degraded, hpath⟩ := h.path
    refine ⟨⟨h.unfinished, ?_, h.unexecuted, h.admitted⟩, fun hne => absurd rfl hne, ?_⟩
    · show ∃ degraded, states (ctx.emittedEvents ++ events ++ [{ state := .dispatched }]) = _
      rw [states_append, states_append, hpath]
      rcases h.events with hnone | hdegraded
      · have hnone : events = [] := hnone
        exact ⟨false, by rw [hnone, List.append_assoc, List.append_assoc]; rfl⟩
      · exact ⟨true, by rw [hdegraded.2, List.append_assoc, List.append_assoc]; rfl⟩
    · intro _ action' envelope' haction' henvelope heffect
      obtain rfl : action = action' := Option.some.inj (haction.symm.trans haction')
      obtain rfl : envelope = envelope' := Option.some.inj henvelope
      have hkey : envelope.dispatchIdempotencyKey = ti.dispatchDedupeKey := h.underKey
      rw [hkey]
      exact h.reserved heffect

/-! ### The execution phase -/

theorem markBoth_leaves {P : List PortCall → Prop} {markKey : Phase σ Unit}
    {mark : String → Call PyError σ Unit} (hkey : Leaves P markKey (fun _ => P) P) :
    Leaves P (markBoth ctx markKey mark) (fun _ => P) P := by
  unfold markBoth
  split
  · refine Leaves.bind hkey (fun _ => ?_)
    split
    · exact leaves_suppressed
    · exact leaves_pure (fun _ h => h)
  · exact leaves_pure (fun _ h => h)

/-- The executor was invoked once, with what the context holds. -/
structure Executed (reasoned : Bool) (ctx : TurnPhaseContext) (call : ExecutorCall) (calls : List PortCall) :
    Prop where
  action : ctx.action = some call.action
  envelope : ctx.envelope = some call.envelope
  before : ∃ earlier, Before .execute reasoned ctx earlier ∧ calls = earlier ++ [.execute call]

theorem Executed.reserved {call : ExecutorCall} {calls : List PortCall}
    (h : Executed reasoned ctx call calls) : Reserved calls := by
  obtain ⟨earlier, hbefore, rfl⟩ := h.before
  intro call' hcall heffect hraised
  have hsame : call' = call := by
    rcases List.mem_append.mp hcall with hold | hnew
    · exact absurd rfl (List.countP_eq_zero.mp hbefore.unexecuted _ hold)
    · exact PortCall.execute.inj (List.mem_singleton.mp hnew)
  subst hsame
  rcases List.mem_append.mp hraised with hold | hnew
  · exact hbefore.reserved rfl _ _ h.action h.envelope heffect hold
  · cases List.mem_singleton.mp hnew

theorem Executed.conclude {call : ExecutorCall} {calls : List PortCall}
    (h : Executed reasoned ctx call calls) {ctx' : TurnPhaseContext}
    (hctx : ctx'.emittedEvents = ctx.emittedEvents) {events : List TurnStateEvent} {last : TurnState}
    (hending : ∀ degraded, Ending reasoned (dispatching degraded ++ states events))
    (hevents : (states events).getLast? = some last) {result : List TurnStateEvent → TurnResult}
    (hresult : ∀ all, (result all).emittedEvents = all ∧ (result all).state = last) :
    Finished (ctx'.conclude events result) calls := by
  have hreserved := h.reserved
  obtain ⟨earlier, hbefore, rfl⟩ := h.before
  obtain ⟨degraded, hpath⟩ := hbefore.path
  have hdispatched : .dispatched ∈ dispatching degraded := by cases degraded <;> decide
  refine ⟨_, rfl, legal_of_ending (hending degraded) ?_ ?_ ?_ ?_, hreserved⟩
  · rw [(hresult _).1]
    show states (ctx'.emittedEvents ++ events) = _
    rw [states_append, hctx, hpath, List.append_assoc]
    rfl
  · rw [(hresult _).2, List.getLast?_append, hevents]
    rfl
  · rw [if_pos (List.mem_append_left _ hdispatched), executions, List.countP_append]
    have hnone : List.countP PortCall.executes earlier = 0 := hbefore.unexecuted
    rw [hnone]
    rfl
  · rw [admissions, List.countP_append]
    exact hbefore.admitted

theorem execute_leaves :
    Leaves (Before .execute reasoned ctx) (phaseExecute S engine ports ctx) Finished Reserved := by
  have hbefore : ∀ calls, Before .execute reasoned ctx calls → Reserved calls :=
    fun _ h => reserved_of_unexecuted h.unexecuted
  refine leaves_assertSome_bind (fun action haction => ?_) hbefore
  refine leaves_assertSome_bind (fun snapshot _ => ?_) hbefore
  refine leaves_assertSome_bind (fun ti _ => ?_) hbefore
  refine leaves_assertSome_bind (fun dp _ => ?_) hbefore
  refine leaves_assertSome_bind (fun envelope henvelope => ?_) hbefore
  dsimp only
  generalize buildExecutionContext ctx.input action snapshot ti (ctx.admissionResult.getD noAdmission)
    envelope = executionContext
  generalize hcall : ExecutorCall.mk action snapshot envelope
    (if engine.executorTakesContext = true then some executionContext else none) = call
  have hinvoked : ∀ calls, Before .execute reasoned ctx calls →
      Executed reasoned ctx call (calls ++ [.execute call]) := by
    intro calls h
    subst hcall
    exact ⟨haction, henvelope, calls, h, rfl⟩
  have hexecute : Leaves (Before .execute reasoned ctx) (executeWithContext ports call : Phase σ ExecuteResult)
      (fun _ => Executed reasoned ctx call) (Executed reasoned ctx call) :=
    Leaves.bind (leaves_ask hinvoked) (fun _ => leaves_awaitPort (fun _ _ h => h) (fun _ h => h))
  have hmark : ∀ x : Call PyError σ Unit,
      Leaves (Executed reasoned ctx call) (ofStore x) (fun _ => Executed reasoned ctx call)
        (Executed reasoned ctx call) :=
    fun _ => leaves_ofStore (fun _ _ h => h) (fun _ h => h)
  have hraised : ∀ e : PyError, Leaves (Executed reasoned ctx call)
      (do
        markBoth ctx (exceptException (ofStore (S.markUnknownEffect ti.dispatchDedupeKey))
          (fun _ => pure ())) S.markUnknownEffect
        raise (.exception e) : Phase σ ExecuteResult)
      (fun _ => Executed reasoned ctx call) Reserved := by
    intro e
    exact Leaves.bind ((markBoth_leaves leaves_suppressed).interrupted (fun _ h => h.reserved))
      (fun _ => leaves_throw (fun _ h => h.reserved))
  refine Leaves.bind (hexecute.exceptException hraised (fun _ h => h.reserved)) (fun executeResult => ?_)
  refine leaves_orRaise_bind (fun acknowledged => ?_) (fun _ h => h.reserved)
  split
  · refine Leaves.bind ((markBoth_leaves (hmark _)).interrupted (fun _ h => h.reserved)) (fun _ => ?_)
    exact leaves_pure (fun calls h => h.conclude rfl .acknowledged rfl (fun _ => ⟨rfl, rfl⟩))
  · refine Leaves.bind ((markBoth_leaves (hmark _)).interrupted (fun _ h => h.reserved)) (fun _ => ?_)
    exact leaves_pure (fun calls h => h.conclude rfl .effectUnknown rfl (fun _ => ⟨rfl, rfl⟩))

end

/-! ### The loop -/

section
variable {σ : Type} {S : DedupeStorePort σ} {H : Digest} {engine : TurnEngine} {ports : TurnPhase → Ports}

/-- The loop returned a legal result. -/
def LegalEnd (e : LoopEnd) (calls : List PortCall) : Prop :=
  ∃ result, e = .returned result ∧ Legal result calls ∧ Reserved calls

theorem waitFor_leaves {p : TurnPhase} {reasoned : Bool} {ctx : TurnPhaseContext}
    {Q : TurnPhaseContext → List PortCall → Prop} {R : List PortCall → Prop}
    (h : Leaves (Before p reasoned ctx) (phase S H engine ports p ctx) Q R)
    (hr : ∀ calls, Before p reasoned ctx calls → R calls) :
    Leaves (Before p reasoned ctx) (waitFor S H engine ports p ctx) Q R := by
  unfold waitFor
  split
  · exact leaves_throw hr
  · exact h

/-- A phase that hands on to the rest of the loop. -/
theorem runPhases_cons {p next : TurnPhase} {rest : List TurnPhase} {reasoned : Bool}
    {ctx : TurnPhaseContext}
    (hphase : Leaves (Before p reasoned ctx) (phase S H engine ports p ctx) (After next) Unexecuted)
    (hrest : ∀ reasoned ctx,
      Leaves (Before next reasoned ctx) (runPhases S H engine ports rest ctx) LegalEnd Reserved) :
    Leaves (Before p reasoned ctx) (runPhases S H engine ports (p :: rest) ctx) LegalEnd Reserved := by
  have hwait := (waitFor_leaves hphase (fun _ h => h.unexecuted)).interrupted
    (fun _ h => reserved_of_unexecuted h)
  refine Leaves.bind hwait (fun ctx' => ?_)
  intro w hw
  rcases hw with ⟨reasoned', hbefore⟩ | ⟨result, hresult, hlegal⟩
  · have hnone := hbefore.unfinished
    simp only [hnone]
    exact hrest reasoned' ctx' w hbefore
  · simp only [hresult]
    exact ⟨result, rfl, hlegal⟩

theorem runPhases_execute {reasoned : Bool} {ctx : TurnPhaseContext} :
    Leaves (Before .execute reasoned ctx) (runPhases S H engine ports [.execute] ctx) LegalEnd Reserved := by
  refine Leaves.bind (waitFor_leaves execute_leaves (fun _ h => reserved_of_unexecuted h.unexecuted))
    (fun ctx' => ?_)
  intro w hw
  obtain ⟨result, hresult, hlegal⟩ := hw
  simp only [hresult]
  exact ⟨result, rfl, hlegal⟩

theorem runTurn_leaves (input : TurnInput) (action : Option Action) :
    Leaves (· = []) (runTurn S H engine ports input action) LegalEnd Reserved := by
  have hstart : ∀ calls : List PortCall, calls = [] → Before .noopOrReasoning false
      { input := input
        action := action
        emittedEvents := [{ state := .collecting }, { state := .intentCommitted }] } calls := by
    rintro _ rfl
    exact ⟨⟨rfl, ⟨false, rfl⟩, rfl, Nat.le_refl 0⟩, (fun _ _ _ h => nomatch h), (fun h => nomatch h)⟩
  have hdedupe : ∀ reasoned ctx, Leaves (Before .dedupe reasoned ctx)
      (runPhases S H engine ports [.dedupe, .execute] ctx) LegalEnd Reserved :=
    fun _ _ => runPhases_cons dedupe_leaves (fun _ _ => runPhases_execute)
  have hpolicy : ∀ reasoned ctx, Leaves (Before .dispatchPolicy reasoned ctx)
      (runPhases S H engine ports [.dispatchPolicy, .dedupe, .execute] ctx) LegalEnd Reserved :=
    fun _ _ => runPhases_cons dispatchPolicy_leaves hdedupe
  have hadmission : ∀ reasoned ctx, Leaves (Before .admission reasoned ctx)
      (runPhases S H engine ports [.admission, .dispatchPolicy, .dedupe, .execute] ctx) LegalEnd Reserved :=
    fun _ _ => runPhases_cons admission_leaves hpolicy
  have hsnapshot : ∀ reasoned ctx, Leaves (Before .snapshot reasoned ctx)
      (runPhases S H engine ports [.snapshot, .admission, .dispatchPolicy, .dedupe, .execute] ctx)
      LegalEnd Reserved :=
    fun _ _ => runPhases_cons snapshot_leaves hadmission
  exact Leaves.weaken (runPhases_cons noopOrReasoning_leaves hsnapshot) hstart

/-- **A turn follows its state machine.** A turn that returns ended a legal path, the loop never
runs out of phases, and, returned or not, the turn executed nothing but an idempotent write
when the reservation under its key raised. -/
theorem run_turn_legal {σ : Type} (S : DedupeStorePort σ) (H : Digest) (engine : TurnEngine)
    (ports : TurnPhase → Ports) (input : TurnInput) (action : Option Action) (store : σ) :
    match runTurn S H engine ports input action { store := store } with
    | .ok (.returned result) w => Legal result w.calls ∧ Reserved w.calls
    | .ok .exhausted _ => False
    | .error _ w => Reserved w.calls := by
  have hleaves : Leaves (· = []) (runTurn S H engine ports input action) LegalEnd Reserved :=
    runTurn_leaves input action
  have hleaves := hleaves { store := store } rfl
  split
  · rename_i result w hrun
    rw [hrun] at hleaves
    obtain ⟨result', hresult, hlegal⟩ := hleaves
    cases hresult
    exact hlegal
  · rename_i w hrun
    rw [hrun] at hleaves
    obtain ⟨result', hresult, _⟩ := hleaves
    cases hresult
  · rename_i i w hrun
    rw [hrun] at hleaves
    exact hleaves

end

namespace Sample

/-- A store that grants one reservation and raises at every other. -/
def onceStore : DedupeStorePort Bool where
  reserve _ := throw ⟨.operationalError, "database is locked"⟩
  markDispatched _ _ := pure ()
  markAcknowledged _ _ := pure ()
  markSucceeded _ _ := pure ()
  markUnknownEffect _ := pure ()
  reserveAndDispatch _ _ := do
    let used ← get
    if used then throw ⟨.operationalError, "database is locked"⟩
    else do
      set true
      pure .granted
  get _ := pure none
  countByRun _ := pure none

end Sample

/-- A reservation under some key raised. -/
def PortCall.reservationRaised : PortCall → Bool
  | .reserveAndDispatch _ raised => raised
  | _ => false

/-- Something else than an idempotent write was executed. -/
def PortCall.executesOther : PortCall → Bool
  | .execute call => call.action.effectClass ≠ .idempotentWrite
  | _ => false

/-- A read is executed although the reservation mirrored under the historical key raised. -/
theorem mirror_raise_executed :
    match runTurn Sample.onceStore Turns.Sample.digest {}
        (fun _ => Turns.Sample.ports Turns.Sample.acknowledged) (Turns.Sample.input "run")
        (some { Turns.Sample.action "run" "act" with effectClass := .readOnly }) { store := false } with
    | .ok (.returned result) w =>
      result.state = .dispatchAcknowledged ∧ w.calls.any PortCall.reservationRaised = true ∧
        w.calls.any PortCall.executesOther = true
    | _ => False :=
  ⟨rfl, rfl, rfl⟩

end AgentKernel.Turns.Phases
