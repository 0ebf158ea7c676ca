import AgentKernel.Events.Journal
import AgentKernel.Persistence.ProjectionCache
import AgentKernel.Projection.Service

/-! The trace of a run, assembled from its exported commits.

A trace ends with the first event of a terminal type, whoever wrote it; the projection of
the same events ends with the first fact that transitions it to a terminal state. The types
are two for the trace and four for the projection, and the projection skips diagnostics. So
the two agree exactly when their first ending events do (`trace_agrees_iff`). -/
namespace AgentKernel.Export
open Lib Events Projection Persistence

/-! ### Traces -/

/-- `_TERMINAL_EVENT_TYPES`. -/
def terminalEventTypes : List String := ["run.completed", "run.aborted"]

structure TurnTrace where
  actionId : String
  actionType : String
  effectClass : String
  hostKind : Option String
  outcomeKind : Option String
  recoveryMode : Option String
  turnEventTypes : List String
  committedAt : String
  dedupeOutcome : Option String := none
  deriving DecidableEq

structure RunTrace where
  runId : String
  turns : List TurnTrace := []
  lifecycleEventTypes : List String := []
  failureCount : Nat := 0
  isTerminal : Bool := false
  terminalState : Option String := none
  firstCommitAt : Option String := none
  lastCommitAt : Option String := none
  deriving DecidableEq

/-- `_infer_outcome_kind`. -/
def inferOutcomeKind (eventTypes : List String) : Option String :=
  if "turn.recovery_pending" ∈ eventTypes ∨ "turn.effect_unknown" ∈ eventTypes then
    some "recovery_pending"
  else if "turn.dispatch_acknowledged" ∈ eventTypes ∨ "turn.effect_recorded" ∈ eventTypes ∨
      "turn.dispatched" ∈ eventTypes then
    some "dispatched"
  else if "turn.dispatch_blocked" ∈ eventTypes then some "blocked"
  else if "turn.completed_noop" ∈ eventTypes then some "noop"
  else none

/-- `_infer_dedupe_outcome`. -/
def inferDedupeOutcome (eventTypes : List String) : Option String :=
  if "turn.dispatched" ∈ eventTypes then
    if "turn.dedupe_degraded" ∈ eventTypes then some "degraded" else some "accepted"
  else if "turn.dispatch_blocked" ∈ eventTypes then some "duplicate"
  else none

/-- The first text under a key in the payloads of the events of these types. -/
def firstText (types : List String) (key : String) (events : List RuntimeEvent) : Option String :=
  events.findSome? (fun e => if e.eventType ∈ types then payloadText e key else none)

/-- `_infer_recovery_mode`. -/
def inferRecoveryMode (eventTypes : List String) (events : List RuntimeEvent) : Option String :=
  match firstText ["recovery.plan_selected"] "planned_mode" events with
  | some plannedMode => some plannedMode
  | none =>
    if "run.waiting_external" ∈ eventTypes ∨ "run.waiting_human_input" ∈ eventTypes then
      some "human_escalation"
    else if "run.recovery_aborted" ∈ eventTypes then some "abort"
    else if "run.recovery_succeeded" ∈ eventTypes then some "static_compensation"
    else none

/-- `_infer_host_kind`. -/
def inferHostKind (events : List RuntimeEvent) : Option String :=
  firstText ["turn.dispatched", "turn.dispatch_acknowledged", "turn.effect_unknown"] "host_kind" events

/-- `_build_turn_trace`. -/
def buildTurnTrace (commit : ActionCommit) (action : Action) (eventTypes : List String) : TurnTrace :=
  { actionId := action.actionId
    actionType := action.actionType
    effectClass := action.effectClass.text
    hostKind := inferHostKind commit.events
    outcomeKind := inferOutcomeKind eventTypes
    recoveryMode := inferRecoveryMode eventTypes commit.events
    turnEventTypes := eventTypes
    committedAt := commit.createdAt
    dedupeOutcome := inferDedupeOutcome eventTypes }

namespace RunTrace

def trackLifecycle (t : RunTrace) (eventType : String) : RunTrace :=
  if Text.startsWith eventType "run." ∧ eventType ∉ t.lifecycleEventTypes then
    { t with lifecycleEventTypes := t.lifecycleEventTypes ++ [eventType] }
  else t

/-- The first terminal event decides. -/
def detectTerminal (t : RunTrace) (eventType : String) : RunTrace :=
  if eventType ∈ terminalEventTypes ∧ t.isTerminal = false then
    { t with isTerminal := true, terminalState := (Text.split '.' eventType)[1]? }
  else t

def addTurn (t : RunTrace) (turn : TurnTrace) : RunTrace :=
  { t with
    turns := t.turns ++ [turn]
    failureCount :=
      if turn.outcomeKind = some "recovery_pending" then t.failureCount + 1 else t.failureCount }

def absorb (t : RunTrace) (commit : ActionCommit) : RunTrace :=
  let eventTypes := commit.events.map RuntimeEvent.eventType
  let stamped : RunTrace :=
    { t with
      firstCommitAt := t.firstCommitAt.or (some commit.createdAt)
      lastCommitAt := some commit.createdAt }
  let seen := run detectTerminal (run trackLifecycle stamped eventTypes) eventTypes
  match commit.action with
  | none => seen
  | some action => seen.addTurn (buildTurnTrace commit action eventTypes)

/-! ### When a trace ends -/

/-- What is read off a trace about the run's end. -/
def ending (t : RunTrace) : Bool × Option String := (t.isTerminal, t.terminalState)

theorem ending_run_trackLifecycle (t : RunTrace) (eventTypes : List String) :
    (run trackLifecycle t eventTypes).ending = t.ending :=
  run_invariant (I := fun (t' : RunTrace) => t'.ending = t.ending)
    (fun t' eventType h => by
      unfold trackLifecycle
      split
      · exact h
      · exact h)
    rfl eventTypes

/-- A trace that saw these events and no others. -/
def Saw (t : RunTrace) (events : List RuntimeEvent) : Prop :=
  t.ending = ((events.find? (fun e => e.eventType ∈ terminalEventTypes)).isSome,
    (events.find? (fun e => e.eventType ∈ terminalEventTypes)).bind
      (fun e => (Text.split '.' e.eventType)[1]?))

theorem detectTerminal_saw {t : RunTrace} {events : List RuntimeEvent} (h : t.Saw events)
    (e : RuntimeEvent) : (t.detectTerminal e.eventType).Saw (events ++ [e]) := by
  unfold Saw at h ⊢
  obtain ⟨hterminal, hstate⟩ := Prod.mk.inj h
  rw [List.find?_append]
  cases hfound : events.find? (fun e => e.eventType ∈ terminalEventTypes) with
  | some first =>
    rw [hfound] at h hterminal
    have hkeep : t.detectTerminal e.eventType = t := if_neg (fun hc => by simp [hterminal] at hc)
    rw [hkeep, h]
    rfl
  | none =>
    rw [hfound] at hterminal hstate
    by_cases he : e.eventType ∈ terminalEventTypes
    · have hend : t.detectTerminal e.eventType =
          { t with isTerminal := true, terminalState := (Text.split '.' e.eventType)[1]? } :=
        if_pos ⟨he, hterminal⟩
      rw [hend]
      simp [ending, he]
    · have hkeep : t.detectTerminal e.eventType = t := if_neg (fun hc => he hc.1)
      rw [hkeep]
      simp [ending, he, hterminal, hstate]

theorem run_detectTerminal_saw {t : RunTrace} {before : List RuntimeEvent} (h : t.Saw before)
    (events : List RuntimeEvent) :
    (run detectTerminal t (events.map RuntimeEvent.eventType)).Saw (before ++ events) := by
  induction events generalizing t before with
  | nil => simpa using h
  | cons e rest ih =>
    rw [List.map_cons, run_cons, List.append_cons]
    exact ih (detectTerminal_saw h e)

theorem absorb_saw {t : RunTrace} {before : List RuntimeEvent} (h : t.Saw before)
    (commit : ActionCommit) : (t.absorb commit).Saw (before ++ commit.events) := by
  have hstarted : (run trackLifecycle
      { t with
        firstCommitAt := t.firstCommitAt.or (some commit.createdAt)
        lastCommitAt := some commit.createdAt } (commit.events.map RuntimeEvent.eventType)).Saw before :=
    (ending_run_trackLifecycle _ _).trans h
  have hseen := run_detectTerminal_saw hstarted commit.events
  unfold absorb
  split
  · exact hseen
  · exact hseen

theorem run_absorb_saw (runId : String) (commits : List ActionCommit) :
    (run absorb { runId := runId } commits).Saw (commits.flatMap ActionCommit.events) := by
  induction commits using List.reverseRecOn with
  | nil => rfl
  | append_singleton commits commit ih =>
    rw [run_append, List.flatMap_append, List.flatMap_singleton]
    exact absorb_saw ih commit

end RunTrace

/-! ### When a projection ends -/

/-- The events whose types transition a projection to a terminal state. -/
def endingEventTypes : List String :=
  ["run.cancel_requested", "run.recovery_aborted", "run.completed", "run.aborted"]

def Ended (p : RunProjection) : Prop :=
  p.lifecycleState = .completed ∨ p.lifecycleState = .aborted

/-- The state an ending event leaves behind. -/
def endState (e : RuntimeEvent) : RunLifecycleState :=
  if e.eventType = "run.completed" then .completed else .aborted

/-- Nothing stands in the way of an ending event. -/
theorem blocked_of_ending {p : RunProjection} (h : ¬ Ended p) {e : RuntimeEvent}
    (he : e.eventType ∈ endingEventTypes) : blockedByTerminalOrPriority p e = false := by
  obtain ⟨hcompleted, haborted⟩ := not_or.mp h
  have hconflict : isLowerPriorityOperationalConflict p e = false := by
    have hpriority : projectionOperationalPriority p = some .timeout ∨
        projectionOperationalPriority p = none := by
      unfold projectionOperationalPriority
      cases hp : p.lifecycleState <;> simp_all
    rcases hpriority with hp | hp <;> unfold isLowerPriorityOperationalConflict <;> rw [hp]
    simp only [endingEventTypes, List.mem_cons, List.not_mem_nil, or_false] at he
    rcases he with he | he | he | he <;> rw [he] <;> rfl
  simp [blockedByTerminalOrPriority, hcompleted, haborted, hconflict]

theorem staticEventTransitions_ending : ∀ row ∈ staticEventTransitions, row.1 ∉ endingEventTypes →
    row.2.lifecycleState ≠ .completed ∧ row.2.lifecycleState ≠ .aborted := by decide

/-- **What one event does to a run that has not ended.** -/
theorem applyProjectionEvent_ending {p : RunProjection} (h : ¬ Ended p) {e : RuntimeEvent}
    (he : e.eventType ∈ endingEventTypes) :
    (applyProjectionEvent p e).lifecycleState = endState e := by
  show (resolveProjectionTransition p e).1.lifecycleState = _
  unfold resolveProjectionTransition endState
  rw [if_neg (by simp [blocked_of_ending h he])]
  simp only [endingEventTypes, List.mem_cons, List.not_mem_nil, or_false] at he
  rcases he with he | he | he | he <;> rw [he] <;> rfl

theorem applyProjectionEvent_not_ending {p : RunProjection} (h : ¬ Ended p) {e : RuntimeEvent}
    (he : e.eventType ∉ endingEventTypes) : ¬ Ended (applyProjectionEvent p e) := by
  show ¬ ((resolveProjectionTransition p e).1.lifecycleState = .completed ∨
    (resolveProjectionTransition p e).1.lifecycleState = .aborted)
  unfold resolveProjectionTransition
  split
  · exact h
  · rw [if_neg (fun hc => he (by simp [endingEventTypes, hc]))]
    split
    · simp
    · split
      next lifecycle hlookup =>
        obtain ⟨hcompleted, haborted⟩ :=
          staticEventTransitions_ending _ (mem_of_lookup hlookup) he
        exact not_or.mpr ⟨hcompleted, haborted⟩
      next =>
        unfold resolveDynamicTransition
        by_cases hchild : e.eventType ∈ ["signal.child_spawned", "signal.child_completed",
            "signal.child_run_completed"]
        · rw [if_pos hchild]
          exact h
        · rw [if_neg hchild]
          by_cases hsignal : Text.startsWith e.eventType "signal." = true
          · rw [if_pos hsignal]
            simp
          · rw [if_neg hsignal]
            exact h

/-- An ended run stays as it ended. -/
theorem applyProjectionEvent_ended {p : RunProjection} (h : Ended p) (e : RuntimeEvent) :
    (applyProjectionEvent p e).lifecycleState = p.lifecycleState := by
  show (resolveProjectionTransition p e).1.lifecycleState = _
  rcases h with h | h
  · rw [resolveProjectionTransition_of_blocked (blocked_of_completed h e)]
    rfl
  · by_cases he : e.eventType = "run.cancel_requested"
    · unfold resolveProjectionTransition
      split
      · rfl
      · simp only [h]
    · rw [resolveProjectionTransition_of_blocked (blocked_of_aborted h he)]
      rfl

/-- The first ending event, if any, decides the state. -/
theorem foldProjection_ending (runId : String) (events : List RuntimeEvent) :
    match events.find? (fun e => e.eventType ∈ endingEventTypes) with
    | some e => (foldProjection runId events).lifecycleState = endState e
    | none => ¬ Ended (foldProjection runId events) := by
  induction events using List.reverseRecOn with
  | nil => exact fun h => by rcases h with h | h <;> cases h
  | append_singleton events e ih =>
    rw [List.find?_append, foldProjection_append]
    cases hfound : events.find? (fun e => e.eventType ∈ endingEventTypes) with
    | some first =>
      rw [hfound] at ih
      have hended : Ended (foldProjection runId events) := by
        unfold Ended
        rw [ih, endState]
        split <;> simp
      exact (applyProjectionEvent_ended hended e).trans ih
    | none =>
      rw [hfound] at ih
      by_cases he : e.eventType ∈ endingEventTypes
      · simpa [he] using applyProjectionEvent_ending ih he
      · simpa [he] using applyProjectionEvent_not_ending ih he

/-! ### Agreement -/

/-- What the trace tells of the run's end is what the projection says. -/
structure Agrees (t : RunTrace) (p : RunProjection) : Prop where
  terminal : t.isTerminal = true ↔ Ended p
  state : t.isTerminal = true → t.terminalState = lifecycleStateTexts.lookup p.lifecycleState

/-- The events of a run that are replayed. -/
def replayed (events : List RuntimeEvent) : List RuntimeEvent :=
  events.filter (fun e => validateProjectionAuthorityInput e true)

/-- The first event of a terminal type and the first replayed event of an ending type are
both missing, or name the same end. -/
def EndsAlike (events : List RuntimeEvent) : Prop :=
  (events.find? (fun e => e.eventType ∈ terminalEventTypes)).map endState =
    ((replayed events).find? (fun e => e.eventType ∈ endingEventTypes)).map endState

instance (events : List RuntimeEvent) : Decidable (EndsAlike events) :=
  inferInstanceAs (Decidable (_ = _))

/-- A terminal type is named after the end. -/
theorem endState_text {e : RuntimeEvent} (h : e.eventType ∈ terminalEventTypes) :
    (Text.split '.' e.eventType)[1]? = lifecycleStateTexts.lookup (endState e) := by
  simp only [terminalEventTypes, List.mem_cons, List.not_mem_nil, or_false] at h
  unfold endState
  rcases h with h | h <;> rw [h] <;> decide

theorem lifecycleStateTexts_injective {s s' : RunLifecycleState}
    (h : lifecycleStateTexts.lookup s = lifecycleStateTexts.lookup s') : s = s' := by
  revert h
  cases s <;> cases s' <;> decide

theorem ended_of_endState {p : RunProjection} {e : RuntimeEvent}
    (h : p.lifecycleState = endState e) : Ended p := by
  unfold Ended
  rw [h, endState]
  split <;> simp

theorem agrees_iff {t : RunTrace} {events : List RuntimeEvent} (h : t.Saw events) (runId : String) :
    Agrees t (foldProjection runId (replayed events)) ↔ EndsAlike events := by
  obtain ⟨hterminal, hstate⟩ := Prod.mk.inj h
  have hfold := foldProjection_ending runId (replayed events)
  unfold EndsAlike
  cases htrace : events.find? (fun e => e.eventType ∈ terminalEventTypes) with
  | none =>
    rw [htrace] at hterminal
    have hopen : ¬ t.isTerminal = true := by simp [hterminal]
    cases hrun : (replayed events).find? (fun e => e.eventType ∈ endingEventTypes) with
    | none =>
      rw [hrun] at hfold
      exact iff_of_true ⟨iff_of_false hopen hfold, fun hc => absurd hc hopen⟩ rfl
    | some e =>
      rw [hrun] at hfold
      refine iff_of_false (fun hagrees => ?_) (by simp)
      exact hopen (hagrees.terminal.mpr (ended_of_endState hfold))
  | some e =>
    rw [htrace] at hterminal hstate
    have he : e.eventType ∈ terminalEventTypes := by simpa using List.find?_some htrace
    have htext : t.terminalState = lifecycleStateTexts.lookup (endState e) :=
      hstate.trans (endState_text he)
    cases hrun : (replayed events).find? (fun e => e.eventType ∈ endingEventTypes) with
    | none =>
      rw [hrun] at hfold
      exact iff_of_false (fun hagrees => hfold (hagrees.terminal.mp hterminal)) (by simp)
    | some first =>
      rw [hrun] at hfold
      rw [Option.map_some, Option.map_some, Option.some.injEq]
      constructor
      · intro hagrees
        have hsame := (htext.symm.trans (hagrees.state hterminal)).trans (by rw [hfold])
        exact lifecycleStateTexts_injective hsame
      · intro hsame
        exact ⟨iff_of_true hterminal (ended_of_endState hfold),
          fun _ => by rw [htext, hfold, hsame]⟩

/-! ### A run that is appended and exported -/

/-- The commits appended to a log, one after the other. -/
def journalOf (commits : List ActionCommit) : Journal := run Journal.append Journal.empty commits

/-- Their export, in the same order. -/
def traceOf (runId : String) (commits : List ActionCommit) : RunTrace :=
  run RunTrace.absorb { runId := runId } commits

/-- What the two views read of an event. -/
def view (e : RuntimeEvent) : String × EventAuthority := (e.eventType, e.eventAuthority)

theorem numberedFrom_view (next : Int) (events : List RuntimeEvent) :
    (numberedFrom next events).map view = events.map view := by
  induction events generalizing next with
  | nil => rfl
  | cons e rest ih => rw [numberedFrom, List.map_cons, ih, List.map_cons]; rfl

theorem eventsOf_journalOf_view {runId : String} {commits : List ActionCommit}
    (hrun : ∀ c ∈ commits, c.runId = runId) :
    ((journalOf commits).eventsOf runId).map view =
      (commits.flatMap ActionCommit.events).map view := by
  induction commits using List.reverseRecOn with
  | nil => rfl
  | append_singleton commits commit ih =>
    have hlast : runId = commit.runId := (hrun commit (by simp)).symm
    rw [journalOf, run_append, run_cons, run_nil, ← journalOf, Journal.eventsOf_append, if_pos hlast,
      List.map_append, numberedFrom_view, ih (fun c hc => hrun c (by simp [hc])),
      List.flatMap_append, List.flatMap_singleton, List.map_append]

theorem find?_view {events events' : List RuntimeEvent} (h : events.map view = events'.map view)
    (P : String × EventAuthority → Bool) :
    (events.find? (fun e => P (view e))).map view = (events'.find? (fun e => P (view e))).map view := by
  have hfind := congrArg (List.find? P) h
  rwa [List.find?_map, List.find?_map] at hfind

section View
variable {events events' : List RuntimeEvent} (h : events.map view = events'.map view)
include h

theorem find?_endState (types : List String) :
    (events.find? (fun e => e.eventType ∈ types)).map endState =
      (events'.find? (fun e => e.eventType ∈ types)).map endState := by
  have hfind := find?_view h (fun k => k.1 ∈ types)
  have hstate := congrArg
    (Option.map (fun k : String × EventAuthority =>
      if k.1 = "run.completed" then RunLifecycleState.completed else .aborted)) hfind
  rwa [Option.map_map, Option.map_map] at hstate

theorem replayed_view : (replayed events).map view = (replayed events').map view := by
  have hfilter := congrArg
    (List.filter (fun k : String × EventAuthority => !(true && k.2 = .derivedDiagnostic))) h
  rwa [List.filter_map, List.filter_map] at hfilter

theorem endsAlike_view : EndsAlike events ↔ EndsAlike events' := by
  unfold EndsAlike
  rw [find?_endState h, find?_endState (replayed_view h)]

theorem saw_view {t : RunTrace} (hsaw : t.Saw events) : t.Saw events' := by
  have hfind := find?_view h (fun k => k.1 ∈ terminalEventTypes)
  refine hsaw.trans (Prod.ext ?_ ?_)
  · have hsome := congrArg Option.isSome hfind
    rwa [Option.isSome_map, Option.isSome_map] at hsome
  · have hname := congrArg (Option.bind · (fun k => (Text.split '.' k.1)[1]?)) hfind
    simp only [Option.bind_map] at hname
    exact hname

end View

/-- **The trace of a run agrees with its projection exactly when the two views end alike.** -/
theorem trace_agrees_iff (runId : String) (commits : List ActionCommit)
    (hrun : ∀ c ∈ commits, c.runId = runId) :
    Agrees (traceOf runId commits)
        (foldProjection runId (replayed ((journalOf commits).eventsOf runId))) ↔
      EndsAlike (commits.flatMap ActionCommit.events) := by
  have hview := eventsOf_journalOf_view hrun
  have hsaw := saw_view hview.symm (RunTrace.run_absorb_saw runId commits)
  exact (agrees_iff hsaw runId).trans (endsAlike_view hview)

namespace Sample

/-- A run made ready and then given an event of this type. -/
def ending (eventType : String) : List ActionCommit :=
  ["run.ready", eventType].map (fun t =>
    { runId := "run"
      commitId := t
      events := [factEvent "run" t 0 none]
      createdAt := "" })

end Sample

theorem trace_agrees_on_completed :
    Agrees (traceOf "run" (Sample.ending "run.completed"))
      (foldProjection "run" (replayed ((journalOf (Sample.ending "run.completed")).eventsOf "run"))) :=
  (trace_agrees_iff "run" _ (by decide)).mpr (by decide)

/-- The trace of a cancelled run stays open. -/
theorem trace_misses_cancellation :
    (∀ c ∈ Sample.ending "run.cancel_requested", c.runId = "run" ∧ c.events ≠ []) ∧
      (traceOf "run" (Sample.ending "run.cancel_requested")).isTerminal = false ∧
      (foldProjection "run" (replayed ((journalOf (Sample.ending "run.cancel_requested")).eventsOf
        "run"))).lifecycleState = .aborted := by
  refine ⟨fun c hc => ?_, by decide +kernel, by decide +kernel⟩
  obtain ⟨t, -, rfl⟩ := List.mem_map.mp hc
  exact ⟨rfl, List.cons_ne_nil _ _⟩

end AgentKernel.Export
