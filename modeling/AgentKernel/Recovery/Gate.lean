import Mathlib.Algebra.Order.Field.Rat
import AgentKernel.Recovery.Compensation
import AgentKernel.Recovery.Planner

/-! The planner-driven recovery gate.

`decide` counts the failure, turns the input away while the circuit of its effect class is
open, and otherwise translates the plan into a decision, which reflection may replace by a
corrected action. Only a decision that reflection had no part in is recorded as a failure of
the class. -/
namespace AgentKernel.Recovery
open Lib Workflow

/-! ### The circuit breaker's state -/

structure CircuitBreakerPolicy where
  threshold : Int := 5
  halfOpenAfterMs : Int := 30000

/-- Where failure counts are kept, with what every store of them answers. Times are exact
seconds. -/
structure CircuitBreakerStore where
  State : Type
  empty : State
  /-- How many failures, and when the last was. -/
  getState : State → String → Int × ℚ
  recordFailure : State → String → ℚ → State
  reset : State → String → State
  getState_empty : ∀ effectClass, getState empty effectClass = (0, 0)
  getState_record : ∀ s effectClass now other, getState (recordFailure s effectClass now) other =
    if other = effectClass then ((getState s effectClass).1 + 1, now) else getState s other
  getState_reset : ∀ s effectClass other, getState (reset s effectClass) other =
    if other = effectClass then (0, 0) else getState s other

/-- `_circuit_failures` and `_circuit_last_failure_mono`. -/
structure CircuitMemory where
  circuitFailures : Dict String Int := .empty
  circuitLastFailureMono : Dict String ℚ := .empty

/-- The gate's own two dictionaries, read against the monotonic clock. -/
def CircuitMemory.store : CircuitBreakerStore where
  State := CircuitMemory
  empty := {}
  getState s effectClass :=
    ((s.circuitFailures.get? effectClass).getD 0, (s.circuitLastFailureMono.get? effectClass).getD 0)
  recordFailure s effectClass now :=
    { circuitFailures :=
        s.circuitFailures.set effectClass ((s.circuitFailures.get? effectClass).getD 0 + 1)
      circuitLastFailureMono := s.circuitLastFailureMono.set effectClass now }
  reset s effectClass :=
    { circuitFailures := s.circuitFailures.erase effectClass
      circuitLastFailureMono := s.circuitLastFailureMono.erase effectClass }
  getState_empty _ := rfl
  getState_record s effectClass now other := by
    simp only [Dict.get?_set]
    split <;> rfl
  getState_reset s effectClass other := by
    simp only [Dict.get?_erase]
    split <;> rfl

/-- A row: `failure_count` and `last_failure_ts`. -/
abbrev CircuitBreakerRows := Dict String (Int × ℚ)

/-- `SQLiteCircuitBreakerStore`, on the wall clock. -/
def CircuitBreakerRows.store : CircuitBreakerStore where
  State := CircuitBreakerRows
  empty := .empty
  getState rows effectClass := (rows.get? effectClass).getD (0, 0)
  recordFailure rows effectClass now :=
    match rows.get? effectClass with
    | none => rows.set effectClass (1, now)
    | some row => rows.set effectClass (row.1 + 1, now)
  reset rows effectClass := rows.erase effectClass
  getState_empty _ := rfl
  getState_record rows effectClass now other := by
    cases rows.get? effectClass <;>
    · simp only [Dict.get?_set, Option.getD_none, Option.getD_some, Int.zero_add]
      split <;> rfl
  getState_reset rows effectClass other := by
    rw [Dict.get?_erase]
    split <;> rfl

/-! ### The gate -/

structure ReflectionPolicy where
  maxRounds : Int := 3
  reflectableFailureKinds : List String :=
    ["heartbeat_timeout", "runtime_error", "output_validation_failed"]
  nonReflectableFailureKinds : List String := ["resource_exhausted", "permission_denied"]
  escalateOnExhaustion : Bool := true

def ReflectionPolicy.isReflectable (policy : ReflectionPolicy) (failureKind : String) : Bool :=
  if failureKind ∈ policy.nonReflectableFailureKinds then false
  else failureKind ∈ policy.reflectableFailureKinds

/-- The gate's `RecoveryDecision`, with the fields the workflow does not read. -/
structure GateDecision where
  runId : String
  mode : RecoveryMode
  reason : String
  compensationActionId : Option String := none
  escalationChannelRef : Option String := none
  correctedAction : Option Action := none
  retryAfterMs : Option Nat := none
  failureCount : Nat := 0

/-- What the workflow reads of it. -/
def GateDecision.read (d : GateDecision) : RecoveryDecision where
  mode := d.mode
  reason := d.reason
  compensationActionId := d.compensationActionId
  escalationChannelRef := d.escalationChannelRef

/-- How a gate is set up. -/
structure PlannedRecoveryGate where
  planner : PlannerHeuristicPolicy := {}
  compensationRegistry : Option CompensationRegistry := none
  reflectionPolicy : Option ReflectionPolicy := none
  hasReasoningLoop : Bool := false
  hasReflectionBuilder : Bool := false
  circuitBreakerPolicy : Option CircuitBreakerPolicy := none
  /-- Whether `execute` raises on an action. -/
  executeRaises : Action → Bool := fun _ => false

/-- `KERNEL_RECOVERY_MODE_REGISTRY`; other actions can be registered, these not again. -/
def recoveryModeOf : RecoveryPlanAction → RecoveryMode
  | .scheduleCompensation => .staticCompensation
  | .notifyHumanOperator => .humanEscalation
  | .abortRun => .abort

/-- `_extract_effect_class`: what the reason code says before its first colon. -/
def extractEffectClass (input : RecoveryInput) : Option String :=
  let reason := Text.lower input.reasonCode
  if Text.contains reason ":" then (Text.split ':' reason).head? else none

/-- `getattr(recovery_input, "failing_action", None)`: an input has no such field. -/
def failingAction (_ : RecoveryInput) : Option Action := none

/-- The decision before reflection, and the actions whose handlers were run for it. -/
structure BaseDecision where
  mode : RecoveryMode
  reason : String
  compensationActionId : Option String
  escalationChannelRef : Option String
  compensated : List Action := []

def retryableModes : List RecoveryMode := [.staticCompensation, .reflectAndRetry]

/-- `_compute_retry_after_ms`. -/
def computeRetryAfterMs (mode : RecoveryMode) (failureCount : Nat) : Option Nat :=
  if mode ∈ retryableModes then some (min (500 * 2 ^ min (failureCount - 1) 16) 30000) else none

/-- `_attach_backoff`. -/
def attachBackoff (d : GateDecision) (failureCount : Nat) : GateDecision :=
  { d with retryAfterMs := computeRetryAfterMs d.mode failureCount, failureCount := failureCount }

/-- What the services of reflection come back with. -/
inductive ReflectionAnswer where
  /-- Nothing could be handed to the reasoning loop. -/
  | unprepared (error : PyError)
  /-- The reasoning loop raised. -/
  | loopFailed
  | actions (actions : List Action)

namespace PlannedRecoveryGate
variable (G : PlannedRecoveryGate)

/-- `_is_circuit_open`, at a reading of the clock. -/
def isCircuitOpen (B : CircuitBreakerStore) (s : B.State) (effectClass : Option String) (now : ℚ) :
    Bool :=
  match G.circuitBreakerPolicy, effectClass with
  | some policy, some effectClass =>
    if (B.getState s effectClass).1 < policy.threshold then false
    else decide ((now - (B.getState s effectClass).2) * 1000 < policy.halfOpenAfterMs)
  | _, _ => false

/-- `_record_circuit_failure`. -/
def recordCircuitFailure (B : CircuitBreakerStore) (s : B.State) (effectClass : Option String)
    (now : ℚ) : B.State :=
  match G.circuitBreakerPolicy, effectClass with
  | some _, some effectClass => B.recordFailure s effectClass now
  | _, _ => s

/-- A compensation whose class has no handler becomes an abort, and one for a failing action is
carried out. -/
def checkCompensation (input : RecoveryInput) (planned : BaseDecision) : BaseDecision :=
  match G.compensationRegistry, extractEffectClass input with
  | some registry, some effectClass =>
    if (registry.get? effectClass).isNone then
      { mode := .abort
        reason := planned.reason ++ ":no_compensation_handler"
        compensationActionId := none
        escalationChannelRef := none }
    else
      match failingAction input with
      | none => planned
      | some action =>
        let compensated := if (registry.get? action.effectClass.text).isSome then [action] else []
        if G.executeRaises action then
          { planned with
            mode := .humanEscalation
            reason := planned.reason ++ ":compensation_exhausted"
            compensationActionId := none
            compensated := compensated }
        else { planned with compensated := compensated }
  | _, _ => planned

/-- The plan as a decision. -/
def base (input : RecoveryInput) : Except PyError BaseDecision := do
  let plan ← G.planner.buildPlanFromInput input
  let planned : BaseDecision :=
    { mode := recoveryModeOf plan.action
      reason := plan.reason
      compensationActionId := plan.compensationActionId
      escalationChannelRef := plan.escalationChannelRef }
  .ok (if planned.mode = .staticCompensation then G.checkCompensation input planned else planned)

/-- `_should_reflect`. -/
def shouldReflect (input : RecoveryInput) (mode : RecoveryMode) : Bool :=
  match G.reflectionPolicy with
  | none => false
  | some policy =>
    G.hasReasoningLoop && G.hasReflectionBuilder &&
      (mode = .staticCompensation || mode = .abort) && policy.isReflectable input.reasonCode &&
      decide (input.reflectionRound < policy.maxRounds)

/-- `_fallback_decision`. -/
def fallbackDecision (input : RecoveryInput) (baseReason : String) : GateDecision :=
  if (G.reflectionPolicy.getD {}).escalateOnExhaustion then
    { runId := input.runId
      mode := .humanEscalation
      reason := baseReason ++ ":reflect_exhausted:escalated" }
  else
    { runId := input.runId
      mode := .abort
      reason := baseReason ++ ":reflect_exhausted:aborted" }

/-- `_decide_reflect_and_retry`. -/
def decideReflectAndRetry (input : RecoveryInput) (baseReason : String) :
    ReflectionAnswer → Except PyError GateDecision
  | .unprepared e => .error e
  | .loopFailed => .ok (G.fallbackDecision input baseReason)
  | .actions [] => .ok (G.fallbackDecision input baseReason)
  | .actions (correctedAction :: _) =>
    .ok
      { runId := input.runId
        mode := .reflectAndRetry
        reason := baseReason ++ ":reflect_and_retry:round=" ++ toString (input.reflectionRound + 1)
        correctedAction := some correctedAction }

end PlannedRecoveryGate

/-- What a gate remembers between decisions. -/
structure GateState (B : CircuitBreakerStore) where
  failureCounts : Dict String Nat := .empty
  breaker : B.State := B.empty

namespace PlannedRecoveryGate
variable (G : PlannedRecoveryGate) {B : CircuitBreakerStore}

/-- `decide`, with the clock as it reads at the check and at the end. -/
def decide (s : GateState B) (input : RecoveryInput) (reflection : ReflectionAnswer)
    (checkedAt endedAt : ℚ) : Except PyError GateDecision × GateState B :=
  let failureCount := (s.failureCounts.get? input.runId).getD 0 + 1
  let counted : GateState B :=
    { s with failureCounts := s.failureCounts.set input.runId failureCount }
  if G.isCircuitOpen B s.breaker input.failedEffectClass checkedAt then
    (.ok
      { runId := input.runId
        mode := .abort
        reason := input.reasonCode ++ ":circuit_open"
        failureCount := failureCount }, counted)
  else
    match G.base input with
    | .error e => (.error e, counted)
    | .ok base =>
      if G.shouldReflect input base.mode then
        ((fun d => attachBackoff d failureCount) <$>
          G.decideReflectAndRetry input base.reason reflection, counted)
      else
        (.ok
          { runId := input.runId
            mode := base.mode
            reason := base.reason
            compensationActionId := base.compensationActionId
            escalationChannelRef := base.escalationChannelRef
            retryAfterMs := computeRetryAfterMs base.mode failureCount
            failureCount := failureCount },
          { counted with
            breaker := G.recordCircuitFailure B s.breaker input.failedEffectClass endedAt })

/-- What `decide` answers, case by case. -/
inductive Decides (s : GateState B) (input : RecoveryInput) (reflection : ReflectionAnswer)
    (checkedAt : ℚ) : Except PyError GateDecision → Prop where
  | turnedAway (hopen : G.isCircuitOpen B s.breaker input.failedEffectClass checkedAt = true) :
    Decides s input reflection checkedAt (.ok
      { runId := input.runId
        mode := .abort
        reason := input.reasonCode ++ ":circuit_open"
        failureCount := (s.failureCounts.get? input.runId).getD 0 + 1 })
  | unplanned {e : PyError}
    (hclosed : G.isCircuitOpen B s.breaker input.failedEffectClass checkedAt = false)
    (hbase : G.base input = .error e) : Decides s input reflection checkedAt (.error e)
  | reflected {base : BaseDecision}
    (hclosed : G.isCircuitOpen B s.breaker input.failedEffectClass checkedAt = false)
    (hbase : G.base input = .ok base) (hreflect : G.shouldReflect input base.mode = true) :
    Decides s input reflection checkedAt
      ((fun d => attachBackoff d ((s.failureCounts.get? input.runId).getD 0 + 1)) <$>
        G.decideReflectAndRetry input base.reason reflection)
  | planned {base : BaseDecision}
    (hclosed : G.isCircuitOpen B s.breaker input.failedEffectClass checkedAt = false)
    (hbase : G.base input = .ok base) (hreflect : G.shouldReflect input base.mode = false) :
    Decides s input reflection checkedAt (.ok
      { runId := input.runId
        mode := base.mode
        reason := base.reason
        compensationActionId := base.compensationActionId
        escalationChannelRef := base.escalationChannelRef
        retryAfterMs :=
          computeRetryAfterMs base.mode ((s.failureCounts.get? input.runId).getD 0 + 1)
        failureCount := (s.failureCounts.get? input.runId).getD 0 + 1 })

theorem decides (s : GateState B) (input : RecoveryInput) (reflection : ReflectionAnswer)
    (checkedAt endedAt : ℚ) :
    G.Decides s input reflection checkedAt (G.decide s input reflection checkedAt endedAt).1 := by
  unfold decide
  cases hopen : G.isCircuitOpen B s.breaker input.failedEffectClass checkedAt with
  | true => exact .turnedAway hopen
  | false =>
    cases hbase : G.base input with
    | error e => exact .unplanned hopen hbase
    | ok base =>
      cases hreflect : G.shouldReflect input base.mode with
      | true =>
        simp only [hreflect, if_true]
        exact .reflected hopen hbase hreflect
      | false =>
        simp only [hreflect, Bool.false_eq_true, if_false]
        exact .planned hopen hbase hreflect

variable {G}

theorem fallbackDecision_mode (input : RecoveryInput) (baseReason : String) :
    (G.fallbackDecision input baseReason).mode = .humanEscalation ∨
      (G.fallbackDecision input baseReason).mode = .abort := by
  unfold fallbackDecision
  split
  · exact .inl rfl
  · exact .inr rfl

/-- Reflection ends in a fallback or in a corrected action. -/
theorem decideReflectAndRetry_cases {input : RecoveryInput} {reason : String}
    {reflection : ReflectionAnswer} {d : GateDecision}
    (h : G.decideReflectAndRetry input reason reflection = .ok d) :
    d = G.fallbackDecision input reason ∨
      d.mode = .reflectAndRetry ∧ ∃ action rest, reflection = .actions (action :: rest) := by
  cases reflection with
  | unprepared e => cases h
  | loopFailed => exact .inl (Except.ok.inj h).symm
  | actions actions =>
    cases actions with
    | nil => exact .inl (Except.ok.inj h).symm
    | cons action rest =>
      obtain rfl := Except.ok.inj h
      exact .inr ⟨rfl, action, rest, rfl⟩

end PlannedRecoveryGate

/-- `on_action_success`. -/
def GateState.onActionSuccess {B : CircuitBreakerStore} (s : GateState B) (effectClass : String) :
    GateState B :=
  { s with breaker := B.reset s.breaker effectClass }

end AgentKernel.Recovery
