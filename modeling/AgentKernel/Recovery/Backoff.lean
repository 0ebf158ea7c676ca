import AgentKernel.Lib.Run
import AgentKernel.Projection.Fold
import AgentKernel.Recovery.Gate

/-! Failure counts and the delay before a retry.

A decision reports a count, "of consecutive failures for this run+action pair", and a delay that
doubles with it. `consecutiveFailures` reads that count off the history of calls. The gate counts
something else: every decision of the run, whichever action failed, and a success resets only the
circuit of an effect class. `follows_backoff_law_iff` says when the two counts are one. -/
namespace AgentKernel.Recovery
open Lib Workflow

/-! ### The law -/

/-- What a call says about an action of a run. -/
inductive Outcome where
  /-- `decide` was asked what to do about a failure, whether it returned or raised. -/
  | failed (runId : String) (actionId : Option String)
  | succeeded (runId actionId : String)
  deriving DecidableEq

/-- How often the action failed since it last succeeded. The history is newest first. -/
def consecutiveFailures (runId : String) (actionId : Option String) : List Outcome → Nat
  | [] => 0
  | .failed run action :: rest =>
    if run = runId ∧ action = actionId then consecutiveFailures runId actionId rest + 1
    else consecutiveFailures runId actionId rest
  | .succeeded run action :: rest =>
    if run = runId ∧ some action = actionId then 0 else consecutiveFailures runId actionId rest

/-- The delay the law asks for. -/
def backoffDelay (mode : RecoveryMode) (failureCount : Nat) : Option Nat :=
  if mode = .staticCompensation ∨ mode = .reflectAndRetry then
    some (min (500 * 2 ^ (failureCount - 1)) 30000)
  else none

/-- A decision reports the count and the delay of the law. -/
structure FollowsBackoffLaw (history : List Outcome) (input : RecoveryInput) (d : GateDecision) :
    Prop where
  failureCount :
    d.failureCount = consecutiveFailures input.runId input.failedActionId history + 1
  retryAfterMs : d.retryAfterMs = backoffDelay d.mode d.failureCount

/-- No other action of the run has failed, and this one has not succeeded after a failure. -/
def OneStreak (runId : String) (actionId : Option String) : List Outcome → Prop
  | [] => True
  | .failed run action :: rest => (run = runId → action = actionId) ∧ OneStreak runId actionId rest
  | .succeeded run action :: rest =>
    (run = runId ∧ some action = actionId → ∀ other, .failed runId other ∉ rest) ∧
      OneStreak runId actionId rest

/-! ### Calls to one gate -/

inductive BackoffCall where
  | decide (input : RecoveryInput) (reflection : ReflectionAnswer) (checkedAt endedAt : ℚ)
  /-- An action went through; the gate is told the effect class alone. -/
  | onActionSuccess (runId actionId effectClass : String)

def BackoffCall.outcome : BackoffCall → Outcome
  | .decide input _ _ _ => .failed input.runId input.failedActionId
  | .onActionSuccess runId actionId _ => .succeeded runId actionId

/-- A gate in use, and what has happened so far. -/
structure CountedRun (B : CircuitBreakerStore) where
  gate : GateState B := {}
  history : List Outcome := []

def CountedRun.next (G : PlannedRecoveryGate) {B : CircuitBreakerStore} (w : CountedRun B)
    (call : BackoffCall) : CountedRun B where
  gate := match call with
    | .decide input reflection checkedAt endedAt =>
      (G.decide w.gate input reflection checkedAt endedAt).2
    | .onActionSuccess _ _ effectClass => w.gate.onActionSuccess effectClass
  history := call.outcome :: w.history

/-! ### What the gate counts -/

/-- All failures of a run. -/
def runFailures (runId : String) : List Outcome → Nat
  | [] => 0
  | .failed run _ :: rest =>
    if run = runId then runFailures runId rest + 1 else runFailures runId rest
  | .succeeded _ _ :: rest => runFailures runId rest

theorem runFailures_eq_zero_iff {runId : String} {history : List Outcome} :
    runFailures runId history = 0 ↔ ∀ other, .failed runId other ∉ history := by
  induction history with
  | nil => exact iff_of_true rfl (fun _ h => nomatch h)
  | cons outcome rest ih =>
    cases outcome with
    | failed run action =>
      by_cases hrun : run = runId
      · rw [runFailures, if_pos hrun, hrun]
        exact iff_of_false (Nat.succ_ne_zero _) (fun h => h action List.mem_cons_self)
      · rw [runFailures, if_neg hrun, ih]
        simp [Ne.symm hrun]
    | succeeded run action =>
      rw [runFailures, ih]
      simp

theorem consecutiveFailures_le (runId : String) (actionId : Option String)
    (history : List Outcome) :
    consecutiveFailures runId actionId history ≤ runFailures runId history := by
  induction history with
  | nil => exact Nat.le_refl 0
  | cons outcome rest ih =>
    cases outcome with
    | failed run action =>
      by_cases hrun : run = runId
      · rw [consecutiveFailures, runFailures, if_pos hrun]
        split <;> omega
      · rw [consecutiveFailures, runFailures, if_neg hrun, if_neg (fun h => hrun h.1)]
        exact ih
    | succeeded run action =>
      rw [consecutiveFailures, runFailures]
      split
      · exact Nat.zero_le _
      · exact ih

/-- The run's failures are the action's consecutive ones exactly when there is one streak. -/
theorem consecutiveFailures_eq_iff (runId : String) (actionId : Option String)
    (history : List Outcome) :
    runFailures runId history = consecutiveFailures runId actionId history ↔
      OneStreak runId actionId history := by
  induction history with
  | nil => exact iff_of_true rfl trivial
  | cons outcome rest ih =>
    have hle := consecutiveFailures_le runId actionId rest
    cases outcome with
    | failed run action =>
      by_cases hrun : run = runId
      · by_cases haction : action = actionId
        · rw [runFailures, consecutiveFailures, if_pos hrun, if_pos ⟨hrun, haction⟩, OneStreak, ← ih]
          simp [haction]
        · rw [runFailures, consecutiveFailures, if_pos hrun, if_neg (fun h => haction h.2)]
          refine iff_of_false (by omega) (fun h => haction (h.1 hrun))
      · rw [runFailures, consecutiveFailures, if_neg hrun, if_neg (fun h => hrun h.1), OneStreak, ← ih]
        simp [hrun]
    | succeeded run action =>
      rw [runFailures, consecutiveFailures, OneStreak, ← ih, ← runFailures_eq_zero_iff]
      by_cases hsame : run = runId ∧ some action = actionId
      · rw [if_pos hsame]
        constructor
        · intro hnone
          exact ⟨fun _ => hnone, by omega⟩
        · exact fun h => h.1 hsame
      · rw [if_neg hsame]
        exact ⟨fun h => ⟨fun hs => absurd hs hsame, h⟩, And.right⟩

/-- The cap on the exponent changes nothing: the cap on the delay is reached before it. -/
theorem computeRetryAfterMs_eq (mode : RecoveryMode) (failureCount : Nat) :
    computeRetryAfterMs mode failureCount = backoffDelay mode failureCount := by
  have hmin : min (500 * 2 ^ min (failureCount - 1) 16) 30000 =
      min (500 * 2 ^ (failureCount - 1)) 30000 := by
    rcases Nat.le_total (failureCount - 1) 16 with hle | hle
    · rw [Nat.min_eq_left hle]
    · have hlarge : 2 ^ 16 ≤ 2 ^ (failureCount - 1) := Nat.pow_le_pow_right (by decide) hle
      rw [Nat.min_eq_right hle, Nat.min_eq_right (by decide), Nat.min_eq_right (by omega)]
  cases mode <;> simp [computeRetryAfterMs, backoffDelay, retryableModes, hmin]

namespace PlannedRecoveryGate
variable {G : PlannedRecoveryGate} {B : CircuitBreakerStore}

/-- Every way to a decision reports the run's count and the delay for it. -/
theorem decide_reports {s : GateState B} {input : RecoveryInput} {reflection : ReflectionAnswer}
    {checkedAt endedAt : ℚ} {d : GateDecision}
    (h : (G.decide s input reflection checkedAt endedAt).1 = .ok d) :
    d.failureCount = (s.failureCounts.get? input.runId).getD 0 + 1 ∧
      d.retryAfterMs = computeRetryAfterMs d.mode d.failureCount := by
  have hcase := G.decides s input reflection checkedAt endedAt
  rw [h] at hcase
  generalize hr : (Except.ok d : Except PyError GateDecision) = r at hcase
  cases hcase with
  | turnedAway =>
    obtain rfl := Except.ok.inj hr
    exact ⟨rfl, rfl⟩
  | unplanned => cases hr
  | reflected =>
    rename_i base _ _ _
    cases ha : G.decideReflectAndRetry input base.reason reflection with
    | error e =>
      rw [ha] at hr
      cases hr
    | ok answer =>
      rw [ha] at hr
      obtain rfl := Except.ok.inj hr
      exact ⟨rfl, rfl⟩
  | planned =>
    obtain rfl := Except.ok.inj hr
    exact ⟨rfl, rfl⟩

theorem decide_failureCounts (s : GateState B) (input : RecoveryInput)
    (reflection : ReflectionAnswer) (checkedAt endedAt : ℚ) :
    (G.decide s input reflection checkedAt endedAt).2.failureCounts =
      s.failureCounts.set input.runId ((s.failureCounts.get? input.runId).getD 0 + 1) := by
  unfold decide
  dsimp only
  split
  · rfl
  · split
    · rfl
    · split <;> rfl

end PlannedRecoveryGate

section
variable {G : PlannedRecoveryGate} {B : CircuitBreakerStore}

/-- The gate's dictionary holds the failures of each run. -/
def CountsRuns (w : CountedRun B) : Prop :=
  ∀ runId, (w.gate.failureCounts.get? runId).getD 0 = runFailures runId w.history

theorem CountsRuns.next {w : CountedRun B} (h : CountsRuns w) (call : BackoffCall) :
    CountsRuns (w.next G call) := by
  intro runId
  cases call with
  | decide input reflection checkedAt endedAt =>
    show ((G.decide w.gate input reflection checkedAt endedAt).2.failureCounts.get? runId).getD 0 =
      if input.runId = runId then runFailures runId w.history + 1 else runFailures runId w.history
    rw [PlannedRecoveryGate.decide_failureCounts, Dict.get?_set]
    by_cases hrun : runId = input.runId
    · rw [if_pos hrun, if_pos hrun.symm, hrun, h input.runId, Option.getD_some]
    · rw [if_neg hrun, if_neg (Ne.symm hrun), h runId]
  | onActionSuccess _ _ _ => exact h runId

theorem countsRuns_run (calls : List BackoffCall) :
    CountsRuns (run (CountedRun.next G) ({} : CountedRun B) calls) :=
  run_invariant (I := CountsRuns) (fun _ call h => h.next call) (fun _ => rfl) calls

end

/-- **When a decision follows the law.** After any calls to a gate, a decision it returns reports
the law's count and delay exactly when every earlier failure of the run was one of the same action
and that action has not succeeded since. -/
theorem follows_backoff_law_iff (G : PlannedRecoveryGate) (B : CircuitBreakerStore)
    (calls : List BackoffCall) (input : RecoveryInput) (reflection : ReflectionAnswer)
    (checkedAt endedAt : ℚ) (d : GateDecision)
    (h : (G.decide (run (CountedRun.next G) ({} : CountedRun B) calls).gate input reflection
      checkedAt endedAt).1 = .ok d) :
    FollowsBackoffLaw (run (CountedRun.next G) ({} : CountedRun B) calls).history input d ↔
      OneStreak input.runId input.failedActionId
        (run (CountedRun.next G) ({} : CountedRun B) calls).history := by
  obtain ⟨hcount, hdelay⟩ := PlannedRecoveryGate.decide_reports h
  rw [countsRuns_run calls input.runId] at hcount
  rw [← consecutiveFailures_eq_iff]
  constructor
  · intro hlaw
    have := hlaw.failureCount
    omega
  · intro hone
    exact
      { failureCount := by omega
        retryAfterMs := by rw [hdelay, computeRetryAfterMs_eq] }

/-- A failure of an action of `run-1` that the planner would compensate. -/
def lostConnection (actionId : String) : RecoveryInput where
  runId := "run-1"
  reasonCode := "transient_io"
  lifecycleState := .dispatching
  projection := Projection.defaultProjection "run-1"
  failedActionId := some actionId

def compensating (actionId : String) (failureCount : Nat) : GateDecision where
  runId := "run-1"
  mode := .staticCompensation
  reason := "recovery:transient_io"
  compensationActionId := some actionId
  retryAfterMs := computeRetryAfterMs .staticCompensation failureCount
  failureCount := failureCount

/-- The second failure in a row of an action. -/
theorem second_failure_follows_law :
    FollowsBackoffLaw [.failed "run-1" (some "a")] (lostConnection "a") (compensating "a" 2) :=
  (follows_backoff_law_iff {} CircuitMemory.store [.decide (lostConnection "a") .loopFailed 0 0]
    (lostConnection "a") .loopFailed 1 1 (compensating "a" 2) (by rfl)).mpr
    ⟨fun _ => rfl, trivial⟩

/-- Two actions of a run fail once each: the second is told that it failed twice, and to wait for
a second. -/
theorem first_failure_counted_twice :
    ∃ d, (PlannedRecoveryGate.decide {} (run (CountedRun.next {})
        ({} : CountedRun CircuitMemory.store)
        [.decide (lostConnection "a") .loopFailed 0 0]).gate (lostConnection "b") .loopFailed 1 1).1 =
      .ok d ∧ d.failureCount = 2 ∧ d.retryAfterMs = some 1000 ∧
      ¬ FollowsBackoffLaw (run (CountedRun.next {}) ({} : CountedRun CircuitMemory.store)
        [.decide (lostConnection "a") .loopFailed 0 0]).history (lostConnection "b") d := by
  refine ⟨compensating "b" 2, by rfl, rfl, rfl, fun hlaw => ?_⟩
  exact absurd hlaw.failureCount (by decide)

end AgentKernel.Recovery
