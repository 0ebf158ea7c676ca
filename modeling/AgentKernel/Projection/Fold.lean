import AgentKernel.Lib.Text
import AgentKernel.Lib.Run
import AgentKernel.Contracts

/-! The decision projection: runtime events folded into run state.

One event resolves a lifecycle transition from a guard, two special cases, a
static table and the `signal.*` family, and then the child runs. The four
lifecycle fields are written together; `resolveProjectionTransition_cases` says
all a transition can do, and what holds of a projection after any events follows
from it (`foldProjection_coherent`, `foldProjection_completed`,
`foldProjection_aborted`). -/
namespace AgentKernel.Projection
open Lib

/-! ### The transition function -/

/-- `_default_projection`. -/
def defaultProjection (runId : String) : RunProjection :=
  { runId := runId
    lifecycleState := .created
    projectedOffset := 0
    waitingExternal := false
    readyForDispatch := false }

/-- The fields a transition writes together. -/
structure Lifecycle where
  lifecycleState : RunLifecycleState
  waitingExternal : Bool
  readyForDispatch : Bool
  recoveryMode : Option RecoveryMode
  deriving DecidableEq, Repr

/-- `_STATIC_EVENT_TRANSITIONS`. -/
def staticEventTransitions : List (String × Lifecycle) :=
  [("run.created", ⟨.created, false, false, none⟩),
   ("run.ready", ⟨.ready, false, true, none⟩),
   ("run.resume_requested", ⟨.recovering, false, false, some .staticCompensation⟩),
   ("run.cancel_requested", ⟨.aborted, false, false, some .abort⟩),
   ("run.recovery_succeeded", ⟨.ready, false, true, none⟩),
   ("run.recovery_aborted", ⟨.aborted, false, false, some .abort⟩),
   ("run.waiting_external", ⟨.waitingExternal, true, false, some .humanEscalation⟩),
   ("run.dispatching", ⟨.dispatching, false, true, none⟩),
   ("run.recovering", ⟨.recovering, false, false, some .staticCompensation⟩),
   ("run.completed", ⟨.completed, false, false, none⟩),
   ("run.aborted", ⟨.aborted, false, false, some .abort⟩)]

inductive OperationalClass where
  | externalCallback
  | timeout
  | hardFailure
  | cancel
  deriving DecidableEq, Repr

/-- `_OPERATIONAL_PRIORITY_RANK`. -/
def OperationalClass.rank : OperationalClass → Nat
  | .externalCallback => 1
  | .timeout => 2
  | .hardFailure => 3
  | .cancel => 4

/-- `_is_cancel_reason`. -/
def isCancelReason : Option String → Bool
  | none => false
  | some reason => reason ≠ "" && Text.contains (Text.lower reason) "cancel"

/-- `_projection_operational_priority`. -/
def projectionOperationalPriority (projection : RunProjection) : Option OperationalClass :=
  match projection.lifecycleState with
  | .aborted => if isCancelReason projection.recoveryReason then some .cancel else some .hardFailure
  | .waitingExternal => some .timeout
  | _ => none

/-- `_event_operational_priority`. -/
def eventOperationalPriority (eventType : String) : Option OperationalClass :=
  if eventType = "run.cancel_requested" then some .cancel
  else if eventType = "run.recovery_aborted" ∨ eventType = "run.aborted" then some .hardFailure
  else if eventType = "run.waiting_external" ∨ eventType = "reconcile.failed" then some .timeout
  else if eventType = "signal.external_callback" ∨ eventType = "signal.callback" then
    some .externalCallback
  else none

/-- `_is_lower_priority_operational_conflict`. -/
def isLowerPriorityOperationalConflict (projection : RunProjection) (event : RuntimeEvent) : Bool :=
  match projectionOperationalPriority projection, eventOperationalPriority event.eventType with
  | some current, some incoming => incoming.rank < current.rank
  | _, _ => false

/-- The payload's text under a key, if there is one. -/
def payloadText (event : RuntimeEvent) (key : String) : Option String :=
  (Value.field (event.payloadJson.getD []) key).str?

/-- `_derive_recovery_reason`. -/
def deriveRecoveryReason (event : RuntimeEvent) (fallback : Option String) : Option String :=
  match payloadText event "reason" with
  | some reason => some reason
  | none =>
    if event.eventType ∈ ["run.ready", "run.completed", "run.created"] then none else fallback

/-- `_derive_cancel_reason`. -/
def deriveCancelReason (event : RuntimeEvent) (fallback : Option String) : String :=
  (deriveRecoveryReason event fallback).getD "cancel_requested"

/-- `_resolve_dynamic_transition`. -/
def resolveDynamicTransition (eventType : String) : Option Lifecycle :=
  if eventType ∈ ["signal.child_spawned", "signal.child_completed", "signal.child_run_completed"] then
    none
  else if Text.startsWith eventType "signal." then some ⟨.ready, false, true, none⟩
  else none

/-- `_projection_unchanged_state`. -/
def projectionUnchangedState (projection : RunProjection) : Lifecycle × Option String :=
  (⟨projection.lifecycleState, projection.waitingExternal, projection.readyForDispatch,
    projection.recoveryMode⟩, projection.recoveryReason)

def blockedByTerminalOrPriority (projection : RunProjection) (event : RuntimeEvent) : Bool :=
  projection.lifecycleState = .completed || isLowerPriorityOperationalConflict projection event ||
    (projection.lifecycleState = .aborted && event.eventType ≠ "run.cancel_requested")

/-- `_resolve_projection_transition`: the lifecycle fields and the recovery reason. -/
def resolveProjectionTransition (projection : RunProjection) (event : RuntimeEvent) :
    Lifecycle × Option String :=
  if blockedByTerminalOrPriority projection event then projectionUnchangedState projection
  else if event.eventType = "run.cancel_requested" then
    (⟨.aborted, false, false, some .abort⟩, some (deriveCancelReason event projection.recoveryReason))
  else if event.eventType = "reconcile.failed" then
    (⟨.waitingExternal, true, false, some .humanEscalation⟩,
      deriveRecoveryReason event projection.recoveryReason)
  else
    match staticEventTransitions.lookup event.eventType with
    | some lifecycle => (lifecycle, deriveRecoveryReason event projection.recoveryReason)
    | none =>
      match resolveDynamicTransition event.eventType with
      | some lifecycle => (lifecycle, projection.recoveryReason)
      | none => projectionUnchangedState projection

/-- `_extract_child_run_id`. -/
def extractChildRunId (event : RuntimeEvent) : Option String :=
  match payloadText event "child_run_id" with
  | some child => if child = "" then none else some child
  | none => none

def childSpawnTypes : List String := ["run.child_spawned", "signal.child_spawned"]

def childCompletionTypes : List String :=
  ["run.child_completed", "run.child_run_completed", "signal.child_completed",
   "signal.child_run_completed"]

/-- `_resolve_active_child_runs`. -/
def resolveActiveChildRuns (projection : RunProjection) (event : RuntimeEvent) : List String :=
  if projection.lifecycleState ∈ [.aborted, .completed] then projection.activeChildRuns
  else
    match extractChildRunId event with
    | none => projection.activeChildRuns
    | some child =>
      if event.eventType ∈ childSpawnTypes then
        if child ∈ projection.activeChildRuns then projection.activeChildRuns
        else projection.activeChildRuns ++ [child]
      else if event.eventType ∈ childCompletionTypes then
        projection.activeChildRuns.filter (fun runId => runId ≠ child)
      else projection.activeChildRuns

/-- `_apply_projection_event`. The policy versions and the task contract are not
carried over. -/
def applyProjectionEvent (projection : RunProjection) (event : RuntimeEvent) : RunProjection :=
  let (lifecycle, recoveryReason) := resolveProjectionTransition projection event
  { runId := projection.runId
    lifecycleState := lifecycle.lifecycleState
    projectedOffset := event.commitOffset
    waitingExternal := lifecycle.waitingExternal
    readyForDispatch := lifecycle.readyForDispatch
    currentActionId := projection.currentActionId
    recoveryMode := lifecycle.recoveryMode
    recoveryReason := recoveryReason
    activeChildRuns := resolveActiveChildRuns projection event }

/-- The projection a run's events fold to. -/
def foldProjection (runId : String) (events : List RuntimeEvent) : RunProjection :=
  run applyProjectionEvent (defaultProjection runId) events

theorem foldProjection_append (runId : String) (a b : List RuntimeEvent) :
    foldProjection runId (a ++ b) = run applyProjectionEvent (foldProjection runId a) b :=
  run_append _ _ a b

@[simp] theorem applyProjectionEvent_offset (p : RunProjection) (e : RuntimeEvent) :
    (applyProjectionEvent p e).projectedOffset = e.commitOffset := rfl

/-! ### Coherence -/

/-- The recovery mode that goes with a state. -/
def modeOf : RunLifecycleState → Option RecoveryMode
  | .aborted => some .abort
  | .waitingExternal => some .humanEscalation
  | .recovering => some .staticCompensation
  | _ => none

/-- The flags and the mode say what the state says. -/
structure Lifecycle.Coherent (l : Lifecycle) : Prop where
  waiting : l.waitingExternal = true ↔ l.lifecycleState = .waitingExternal
  ready : l.readyForDispatch = true ↔ l.lifecycleState = .ready ∨ l.lifecycleState = .dispatching
  mode : l.recoveryMode = modeOf l.lifecycleState

instance (l : Lifecycle) : Decidable l.Coherent :=
  decidable_of_iff (_ ∧ _ ∧ _) ⟨fun h => ⟨h.1, h.2.1, h.2.2⟩, fun h => ⟨h.1, h.2, h.3⟩⟩

theorem staticEventTransitions_coherent : ∀ row ∈ staticEventTransitions, row.2.Coherent := by decide

theorem mem_of_lookup {α : Type} {key : String} {v : α} {l : List (String × α)}
    (h : l.lookup key = some v) : (key, v) ∈ l := by
  induction l with
  | nil => cases h
  | cons e rest ih =>
    obtain ⟨k, w⟩ := e
    by_cases hk : key = k
    · subst hk
      simp only [List.lookup_cons, beq_self_eq_true, Option.some.injEq] at h
      exact h ▸ List.mem_cons_self
    · simp only [List.lookup_cons, beq_eq_false_iff_ne.mpr hk] at h
      exact List.mem_cons_of_mem _ (ih h)

/-- **All a transition can do.** It leaves the lifecycle and the reason alone, or, when
nothing blocks the event, enters a coherent lifecycle. -/
theorem resolveProjectionTransition_cases (p : RunProjection) (e : RuntimeEvent) :
    resolveProjectionTransition p e = projectionUnchangedState p ∨
      blockedByTerminalOrPriority p e = false ∧ (resolveProjectionTransition p e).1.Coherent := by
  unfold resolveProjectionTransition
  by_cases hblocked : blockedByTerminalOrPriority p e = true
  · exact .inl (if_pos hblocked)
  · rw [if_neg hblocked]
    have hfree := Bool.not_eq_true _ ▸ hblocked
    split
    · exact .inr ⟨hfree, by dsimp only; decide⟩
    · split
      · exact .inr ⟨hfree, by dsimp only; decide⟩
      · split
        · rename_i lifecycle hlookup
          exact .inr ⟨hfree, staticEventTransitions_coherent _ (mem_of_lookup hlookup)⟩
        · unfold resolveDynamicTransition
          split
          · rename_i hdyn
            split at hdyn
            · cases hdyn
            · split at hdyn
              · cases hdyn
                exact .inr ⟨hfree, by dsimp only; decide⟩
              · cases hdyn
          · exact .inl rfl

/-- A projection as the fold leaves it. -/
structure Coherent (p : RunProjection) : Prop where
  waiting : p.waitingExternal = true ↔ p.lifecycleState = .waitingExternal
  ready : p.readyForDispatch = true ↔ p.lifecycleState = .ready ∨ p.lifecycleState = .dispatching
  mode : p.recoveryMode = modeOf p.lifecycleState

/-- What the fold never sets. -/
structure Bare (p : RunProjection) : Prop where
  policy : p.policyVersions = none
  contract : p.taskContractRef = none

theorem applyProjectionEvent_coherent (p : RunProjection) (e : RuntimeEvent) (h : Coherent p) :
    Coherent (applyProjectionEvent p e) := by
  rcases resolveProjectionTransition_cases p e with hsame | ⟨_, hcoh⟩
  · refine ⟨?_, ?_, ?_⟩ <;> simp only [applyProjectionEvent, hsame, projectionUnchangedState]
    · exact h.waiting
    · exact h.ready
    · exact h.mode
  · exact ⟨hcoh.waiting, hcoh.ready, hcoh.mode⟩

theorem foldProjection_coherent (runId : String) (events : List RuntimeEvent) :
    Coherent (foldProjection runId events) :=
  run_invariant applyProjectionEvent_coherent (by constructor <;> simp [defaultProjection, modeOf]) events

theorem foldProjection_bare (runId : String) (events : List RuntimeEvent) :
    Bare (foldProjection runId events) :=
  run_invariant (fun _ _ _ => ⟨rfl, rfl⟩) ⟨rfl, rfl⟩ events

/-! ### Terminal states -/

/-- Two projections that agree on everything but the offset. -/
def SameButOffset (p q : RunProjection) : Prop :=
  { p with projectedOffset := 0 } = { q with projectedOffset := 0 }

/-- Two projections that agree on everything but the offset and the recovery reason. -/
def SameButOffsetAndReason (p q : RunProjection) : Prop :=
  { p with projectedOffset := 0, recoveryReason := none } =
    { q with projectedOffset := 0, recoveryReason := none }

/-- A transition that leaves the lifecycle alone in a terminal state changes only the
offset. -/
theorem applyProjectionEvent_unchanged {p : RunProjection} {e : RuntimeEvent} (hbare : Bare p)
    (hterminal : p.lifecycleState ∈ [RunLifecycleState.aborted, .completed])
    (h : resolveProjectionTransition p e = projectionUnchangedState p) :
    applyProjectionEvent p e = { p with projectedOffset := e.commitOffset } := by
  obtain ⟨runId, state, offset, waiting, ready, action, mode, reason, children, policy, contract⟩ := p
  obtain ⟨rfl, rfl⟩ : policy = none ∧ contract = none := ⟨hbare.policy, hbare.contract⟩
  simp only [applyProjectionEvent, h, projectionUnchangedState, resolveActiveChildRuns, hterminal,
    if_true]

theorem blocked_of_completed {p : RunProjection} (h : p.lifecycleState = .completed) (e : RuntimeEvent) :
    blockedByTerminalOrPriority p e = true := by
  simp [blockedByTerminalOrPriority, h]

/-- An aborted run takes no event but a cancel request. -/
theorem blocked_of_aborted {p : RunProjection} (h : p.lifecycleState = .aborted) {e : RuntimeEvent}
    (he : e.eventType ≠ "run.cancel_requested") : blockedByTerminalOrPriority p e = true := by
  simp [blockedByTerminalOrPriority, h, he]

theorem resolveProjectionTransition_of_blocked {p : RunProjection} {e : RuntimeEvent}
    (h : blockedByTerminalOrPriority p e = true) :
    resolveProjectionTransition p e = projectionUnchangedState p := if_pos h

theorem applyProjectionEvent_completed {p : RunProjection} (hbare : Bare p)
    (h : p.lifecycleState = .completed) (e : RuntimeEvent) :
    applyProjectionEvent p e = { p with projectedOffset := e.commitOffset } :=
  applyProjectionEvent_unchanged hbare (by simp [h])
    (resolveProjectionTransition_of_blocked (blocked_of_completed h e))

/-- A cancel request on an aborted run restates the abort with a reason of its own. -/
theorem applyProjectionEvent_aborted_cancel {p : RunProjection} (hbare : Bare p) (hcoh : Coherent p)
    (h : p.lifecycleState = .aborted) {e : RuntimeEvent} (he : e.eventType = "run.cancel_requested") :
    applyProjectionEvent p e = { p with
      projectedOffset := e.commitOffset
      recoveryReason := some (deriveCancelReason e p.recoveryReason) } := by
  have hprio : isLowerPriorityOperationalConflict p e = false := by
    simp only [isLowerPriorityOperationalConflict, projectionOperationalPriority, h,
      eventOperationalPriority, he, if_true]
    cases isCancelReason p.recoveryReason <;> rfl
  have hfree : blockedByTerminalOrPriority p e = false := by
    simp [blockedByTerminalOrPriority, h, he, hprio]
  have hwait : p.waitingExternal = false := by
    have hw := hcoh.waiting
    rw [h] at hw
    simpa using hw
  have hready : p.readyForDispatch = false := by
    have hr := hcoh.ready
    rw [h] at hr
    simpa using hr
  have hmode : p.recoveryMode = some .abort := by rw [hcoh.mode, h]; rfl
  obtain ⟨runId, state, offset, waiting, ready, action, mode, reason, children, policy, contract⟩ := p
  obtain ⟨rfl, rfl⟩ : policy = none ∧ contract = none := ⟨hbare.policy, hbare.contract⟩
  obtain rfl : state = .aborted := h
  obtain rfl : waiting = false := hwait
  obtain rfl : ready = false := hready
  obtain rfl : mode = some .abort := hmode
  simp [applyProjectionEvent, resolveProjectionTransition, hfree, he, resolveActiveChildRuns]

/-- What stays of a completed run. -/
theorem run_completed {p : RunProjection} (hbare : Bare p) (h : p.lifecycleState = .completed)
    (events : List RuntimeEvent) : SameButOffset (run applyProjectionEvent p events) p := by
  induction events generalizing p with
  | nil => rfl
  | cons e rest ih =>
    have hstep := applyProjectionEvent_completed hbare h e
    rw [run_cons, hstep]
    exact ih ⟨hbare.policy, hbare.contract⟩ h

/-- What stays of an aborted run. -/
theorem run_aborted {p : RunProjection} (hbare : Bare p) (hcoh : Coherent p)
    (h : p.lifecycleState = .aborted) (events : List RuntimeEvent) :
    SameButOffsetAndReason (run applyProjectionEvent p events) p ∧
      ((∀ e ∈ events, e.eventType ≠ "run.cancel_requested") →
        SameButOffset (run applyProjectionEvent p events) p) := by
  induction events generalizing p with
  | nil => exact ⟨rfl, fun _ => rfl⟩
  | cons e rest ih =>
    rw [run_cons]
    by_cases he : e.eventType = "run.cancel_requested"
    · rw [applyProjectionEvent_aborted_cancel hbare hcoh h he]
      obtain ⟨hrest, _⟩ := ih (p := { p with
        projectedOffset := e.commitOffset
        recoveryReason := some (deriveCancelReason e p.recoveryReason) })
        ⟨hbare.policy, hbare.contract⟩ ⟨hcoh.waiting, hcoh.ready, hcoh.mode⟩ h
      exact ⟨hrest, fun hno => (hno e List.mem_cons_self he).elim⟩
    · have hstep := applyProjectionEvent_unchanged hbare (by simp [h])
        (resolveProjectionTransition_of_blocked (blocked_of_aborted h he))
      rw [hstep]
      obtain ⟨hrest, hreason⟩ := ih (p := { p with projectedOffset := e.commitOffset })
        ⟨hbare.policy, hbare.contract⟩ ⟨hcoh.waiting, hcoh.ready, hcoh.mode⟩ h
      exact ⟨hrest, fun hno => hreason (fun e' he' => hno e' (List.mem_cons_of_mem e he'))⟩

theorem foldProjection_offset_concat (runId : String) (events : List RuntimeEvent) (e : RuntimeEvent) :
    (foldProjection runId (events ++ [e])).projectedOffset = e.commitOffset := by
  rw [foldProjection_append]
  rfl

/-- One more event moves the offset on, if it comes after the ones before. -/
theorem foldProjection_offset_lt {runId : String} {pre : List RuntimeEvent} {e : RuntimeEvent}
    (hafter : ∀ e' ∈ pre, e'.commitOffset < e.commitOffset) (hfirst : pre ≠ [] ∨ 0 < e.commitOffset) :
    (foldProjection runId pre).projectedOffset < (foldProjection runId (pre ++ [e])).projectedOffset := by
  rw [foldProjection_offset_concat]
  rcases List.eq_nil_or_concat pre with rfl | ⟨front, last, rfl⟩
  · rcases hfirst with h | h
    · exact (h rfl).elim
    · exact h
  · rw [List.concat_eq_append, foldProjection_offset_concat]
    exact hafter last (by simp)

/-- **What holds of a projection after any events.** The state decides the flags and the
recovery mode, the offset moves with every event, and terminal states stay. -/
theorem projection_coherent_and_absorbing (runId : String) (events : List RuntimeEvent)
    (hoffsets : (events.map RuntimeEvent.commitOffset).Pairwise (· < ·)) :
    Coherent (foldProjection runId events) ∧
      (∀ pre e post, events = pre ++ e :: post → pre ≠ [] ∨ 0 < e.commitOffset →
        (foldProjection runId pre).projectedOffset < (foldProjection runId (pre ++ [e])).projectedOffset) ∧
      (∀ pre post, events = pre ++ post → (foldProjection runId pre).lifecycleState = .completed →
        SameButOffset (foldProjection runId events) (foldProjection runId pre)) ∧
      (∀ pre post, events = pre ++ post → (foldProjection runId pre).lifecycleState = .aborted →
        SameButOffsetAndReason (foldProjection runId events) (foldProjection runId pre) ∧
        ((∀ e ∈ post, e.eventType ≠ "run.cancel_requested") →
          SameButOffset (foldProjection runId events) (foldProjection runId pre))) := by
  refine ⟨foldProjection_coherent runId events, ?_, ?_, ?_⟩
  · intro pre e post hsplit hfirst
    obtain rfl := hsplit
    refine foldProjection_offset_lt ?_ hfirst
    rw [List.map_append, List.map_cons, List.pairwise_append] at hoffsets
    intro e' he'
    exact hoffsets.2.2 _ (List.mem_map_of_mem he') _ List.mem_cons_self
  · intro pre post hsplit h
    obtain rfl := hsplit
    rw [foldProjection_append]
    exact run_completed (foldProjection_bare runId pre) h post
  · intro pre post hsplit h
    obtain rfl := hsplit
    rw [foldProjection_append]
    exact run_aborted (foldProjection_bare runId pre) (foldProjection_coherent runId pre) h post

/-- A fact of a run without references. -/
def factEvent (runId eventType : String) (offset : Int) (payload : Option Payload) : RuntimeEvent :=
  { runId := runId
    eventId := eventType
    commitOffset := offset
    eventType := eventType
    eventClass := .fact
    eventAuthority := .authoritativeFact
    orderingKey := runId
    wakePolicy := .wakeActor
    createdAt := ""
    payloadJson := payload }

/-- A run that completes and is then cancelled, too late. -/
theorem projection_coherent_after_completion :
    ([factEvent "r" "run.completed" 1 none, factEvent "r" "run.cancel_requested" 2 none].map
        RuntimeEvent.commitOffset).Pairwise (· < ·) ∧
      Coherent (foldProjection "r"
        [factEvent "r" "run.completed" 1 none, factEvent "r" "run.cancel_requested" 2 none]) :=
  ⟨by decide, (projection_coherent_and_absorbing "r" _ (by decide)).1⟩

end AgentKernel.Projection
