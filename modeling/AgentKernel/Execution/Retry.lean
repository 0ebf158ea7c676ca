import Mathlib.Algebra.Group.Int.Defs
import AgentKernel.Contracts

/-! The retrying executor.

`RetryingExecutorService.execute` tries the inner executor again after a transient error, up to
its number of attempts. A transient error says whether the action may have been executed; the
pause before the next attempt depends on the kind of the error, and nothing depends on that
word. -/
namespace AgentKernel.Execution
open Lib

/-! ### Transient errors -/

inductive TransientKind where
  | transientExecution
  | connection
  | timeout
  | rateLimit
  | serviceOverload
  deriving DecidableEq, Repr

structure TransientExecutionError where
  kind : TransientKind := .transientExecution
  message : String := ""
  backoffHintMs : Option Int := none
  mayHaveExecuted : Bool := false
  deriving DecidableEq, Repr

def connectionTransientError (message : String) (backoffHintMs : Option Int) : TransientExecutionError :=
  ⟨.connection, message, backoffHintMs, false⟩

def timeoutTransientError (message : String) (backoffHintMs : Option Int) : TransientExecutionError :=
  ⟨.timeout, message, backoffHintMs, true⟩

/-- A retry window of zero counts as none. -/
def rateLimitTransientError (message : String) (retryAfterMs backoffHintMs : Option Int) :
    TransientExecutionError :=
  ⟨.rateLimit, message, (retryAfterMs.filter (· ≠ 0)).or backoffHintMs, false⟩

def serviceOverloadTransientError (message : String) (backoffHintMs : Option Int) :
    TransientExecutionError :=
  ⟨.serviceOverload, message, backoffHintMs, false⟩

/-- What may be raised while an action is executed. -/
inductive Raised where
  | transient (e : TransientExecutionError)
  | other (e : PyError)
  /-- An exception that `except Exception` does not catch, such as a cancellation. -/
  | exit (e : PyError)
  deriving DecidableEq, Repr

/-! ### The service -/

/-- The configuration a constructor lets through. -/
structure RetryingExecutorService where
  maxAttempts : Nat
  baseDelayMs : Int := 100
  jitterMs : Int := 50
  hooked : Bool := false
  positive : 1 ≤ maxAttempts

def RetryingExecutorService.create (maxAttempts baseDelayMs jitterMs : Int) (hooked : Bool) :
    Except PyError RetryingExecutorService :=
  if h : maxAttempts < 1 then
    .error ⟨.valueError, "max_attempts must be >= 1, got " ++ toString maxAttempts⟩
  else .ok ⟨maxAttempts.toNat, baseDelayMs, jitterMs, hooked, by omega⟩

/-- `random.randint`, from a draw that is arbitrary. -/
def randint (low high : Int) (draw : Nat) : Except PyError Int :=
  if high < low then
    .error ⟨.valueError, "empty range in randrange(" ++ toString low ++ ", " ++ toString (high + 1) ++ ")"⟩
  else .ok (low + draw % (high - low + 1))

/-- How something awaited ends. -/
inductive End (α : Type) where
  | returned (value : α)
  | raised (e : Raised)
  | never
  deriving DecidableEq, Repr

/-- Everything a call does not decide itself, by attempt: how the inner executor ends, the
random draw, how the sleep ends and what the hook raises. -/
structure Behaviour (α : Type) where
  inner : Nat → End α
  draw : Nat → Nat
  sleep : Nat → End Unit
  hook : Nat → Option Raised

inductive Step (K : Type) where
  | invoked (action : Action) (kwargs : K)
  | slept (delayMs : Int)
  | onCircuitBreakerTrip (runId effectClass : String) (failureCount : Nat) (tripped : Bool)

def Step.isInvoked {K : Type} : Step K → Bool
  | .invoked .. => true
  | _ => false

/-- What a call did, and how it ends. -/
structure Outcome (K α : Type) where
  steps : List (Step K)
  result : End α

/-- How often the inner executor was invoked. -/
def Outcome.invocations {K α : Type} (o : Outcome K α) : Nat := o.steps.countP Step.isInvoked

namespace RetryingExecutorService
variable {K α : Type}

def multiplier : TransientKind → Int
  | .connection => 1
  | .timeout => 4
  | .serviceOverload => 2
  | .rateLimit | .transientExecution => 1

def computeDelay (S : RetryingExecutorService) (exc : TransientExecutionError) (attempt draw : Nat) :
    Except PyError Int := do
  match exc.backoffHintMs with
  | some hint => pure (max hint S.baseDelayMs + (← randint 0 S.jitterMs draw))
  | none => pure (S.baseDelayMs * multiplier exc.kind * 2 ^ attempt + (← randint 0 S.jitterMs draw))

/-- Where the body of the loop leaves the call: with an end, or before the next attempt. -/
inductive Attempt (K α : Type) where
  | ends (steps : List (Step K)) (result : End α)
  | again (steps : List (Step K)) (last : TransientExecutionError)

/-- The report of an overloaded service. Only what is no `Exception` gets past the suppression. -/
def trip (S : RetryingExecutorService) (b : Behaviour α) (action : Action) (exc : TransientExecutionError)
    (attempt : Nat) : List (Step K) × Option Raised :=
  if exc.kind = .serviceOverload ∧ S.hooked then
    ([.onCircuitBreakerTrip action.runId action.effectClass.text (attempt + 1) false],
      match b.hook attempt with
      | some (.exit e) => some (.exit e)
      | _ => none)
  else ([], none)

/-- The pause before the next attempt. -/
def pause (S : RetryingExecutorService) (b : Behaviour α) (action : Action) (exc : TransientExecutionError)
    (attempt : Nat) : Attempt K α :=
  match S.computeDelay exc attempt (b.draw attempt) with
  | .error e => .ends [] (.raised (.other e))
  | .ok delayMs =>
    match b.sleep attempt with
    | .raised e => .ends [.slept delayMs] (.raised e)
    | .never => .ends [.slept delayMs] .never
    | .returned () =>
      match S.trip b action exc attempt with
      | (steps, some e) => .ends (.slept delayMs :: steps) (.raised e)
      | (steps, none) => .again (.slept delayMs :: steps) exc

/-- The body of the loop of `execute`, after the inner executor was invoked. -/
def attempted (S : RetryingExecutorService) (b : Behaviour α) (action : Action) (attempt : Nat) :
    Attempt K α :=
  match b.inner attempt with
  | .returned value => .ends [] (.returned value)
  | .never => .ends [] .never
  | .raised (.transient exc) =>
    if attempt < S.maxAttempts - 1 then S.pause b action exc attempt else .again [] exc
  | .raised e => .ends [] (.raised e)

/-- `raise last_exc`. -/
def raiseLast : Option TransientExecutionError → End α
  | some exc => .raised (.transient exc)
  | none => .raised (.other ⟨.typeError, "exceptions must derive from BaseException"⟩)

/-- The attempts left of `range(max_attempts)`. -/
def attempts (S : RetryingExecutorService) (b : Behaviour α) (action : Action) (kwargs : K) :
    Option TransientExecutionError → List Nat → Outcome K α
  | last, [] => ⟨[], raiseLast last⟩
  | _, attempt :: rest =>
    match S.attempted b action attempt with
    | .ends steps result => ⟨.invoked action kwargs :: steps, result⟩
    | .again steps exc =>
      let e := S.attempts b action kwargs (some exc) rest
      ⟨.invoked action kwargs :: (steps ++ e.steps), e.result⟩

def execute (S : RetryingExecutorService) (b : Behaviour α) (action : Action) (kwargs : K) :
    Outcome K α :=
  S.attempts b action kwargs none (List.range S.maxAttempts)

/-! ### How far the attempts get -/

/-- Nothing comes between a transient error and the next attempt. -/
def Undisturbed (S : RetryingExecutorService) (b : Behaviour α) (attempt : Nat)
    (exc : TransientExecutionError) : Prop :=
  0 ≤ S.jitterMs ∧ b.sleep attempt = .returned () ∧
    ∀ e, exc.kind = .serviceOverload → S.hooked = true → b.hook attempt ≠ some (.exit e)

/-- The attempt leaves the loop to go on. -/
def GoesOn (S : RetryingExecutorService) (b : Behaviour α) (attempt : Nat) : Prop :=
  ∃ exc, b.inner attempt = .raised (.transient exc) ∧
    (attempt + 1 < S.maxAttempts → S.Undisturbed b attempt exc)

theorem computeDelay_ok_iff (S : RetryingExecutorService) (exc : TransientExecutionError)
    (attempt draw : Nat) : (∃ delayMs, S.computeDelay exc attempt draw = .ok delayMs) ↔ 0 ≤ S.jitterMs := by
  have hdraw : (∃ n, randint 0 S.jitterMs draw = .ok n) ↔ 0 ≤ S.jitterMs := by
    unfold randint
    split
    · rename_i hneg
      exact iff_of_false (fun h => nomatch h) (by omega)
    · rename_i hpos
      exact iff_of_true ⟨_, rfl⟩ (by omega)
  rw [← hdraw]
  unfold computeDelay
  cases exc.backoffHintMs <;> cases randint 0 S.jitterMs draw <;> simp [bind, Except.bind, pure, Except.pure]

/-- How an attempt leaves the body of the loop, in terms of its behaviour. -/
inductive Leaves (S : RetryingExecutorService) (b : Behaviour α) (attempt : Nat) : Attempt K α → Prop where
  | again {steps exc} (inner : b.inner attempt = .raised (.transient exc))
      (undisturbed : attempt + 1 < S.maxAttempts → S.Undisturbed b attempt exc)
      (quiet : steps.countP Step.isInvoked = 0) : Leaves S b attempt (.again steps exc)
  | disturbed {steps result exc} (inner : b.inner attempt = .raised (.transient exc))
      (earlier : attempt + 1 < S.maxAttempts) (disturbed : ¬ S.Undisturbed b attempt exc)
      (quiet : steps.countP Step.isInvoked = 0) : Leaves S b attempt (.ends steps result)
  | ends {result} (inner : b.inner attempt = result)
      (settled : ∀ exc, result ≠ .raised (.transient exc)) : Leaves S b attempt (.ends [] result)

theorem trip_spec (S : RetryingExecutorService) (b : Behaviour α) (action : Action)
    (exc : TransientExecutionError) (attempt : Nat) :
    (trip (K := K) S b action exc attempt).1.countP Step.isInvoked = 0 ∧
      ((trip (K := K) S b action exc attempt).2 = none ↔
        ∀ e, exc.kind = .serviceOverload → S.hooked = true → b.hook attempt ≠ some (.exit e)) := by
  unfold trip
  split
  · rename_i htrip
    refine ⟨rfl, ?_⟩
    cases hhook : b.hook attempt with
    | none => simp
    | some r => cases r <;> simp [htrip.1, htrip.2]
  · rename_i hquiet
    refine ⟨rfl, iff_of_true rfl ?_⟩
    intro e hkind hhooked
    exact absurd ⟨hkind, hhooked⟩ hquiet

theorem pause_leaves (S : RetryingExecutorService) (b : Behaviour α) (action : Action) (attempt : Nat)
    {exc : TransientExecutionError} (hinner : b.inner attempt = .raised (.transient exc))
    (hearlier : attempt + 1 < S.maxAttempts) :
    S.Leaves b attempt (pause (K := K) S b action exc attempt) := by
  have hdelay := S.computeDelay_ok_iff exc attempt (b.draw attempt)
  obtain ⟨hquiet, htrip⟩ := trip_spec (K := K) S b action exc attempt
  unfold pause
  cases hd : S.computeDelay exc attempt (b.draw attempt) with
  | error e =>
    refine .disturbed hinner hearlier (fun h => ?_) rfl
    obtain ⟨delayMs, hok⟩ := hdelay.mpr h.1
    rw [hd] at hok
    cases hok
  | ok delayMs =>
    cases hs : b.sleep attempt with
    | raised e => exact .disturbed hinner hearlier (fun h => nomatch hs.symm.trans h.2.1) rfl
    | never => exact .disturbed hinner hearlier (fun h => nomatch hs.symm.trans h.2.1) rfl
    | returned u =>
      cases ht : trip (K := K) S b action exc attempt with
      | mk steps raised =>
        rw [ht] at hquiet htrip
        have hcount : (Step.slept delayMs :: steps).countP Step.isInvoked = 0 := hquiet
        cases raised with
        | none => exact .again hinner (fun _ => ⟨hdelay.mp ⟨delayMs, hd⟩, hs, htrip.mp rfl⟩) hcount
        | some e => exact .disturbed hinner hearlier (fun h => nomatch htrip.mpr h.2.2) hcount

/-- **What one attempt does.** -/
theorem attempted_leaves (S : RetryingExecutorService) (b : Behaviour α) (action : Action) (attempt : Nat) :
    S.Leaves b attempt (attempted (K := K) S b action attempt) := by
  unfold attempted
  cases hinner : b.inner attempt with
  | returned value => exact .ends hinner (fun _ h => nomatch h)
  | never => exact .ends hinner (fun _ h => nomatch h)
  | raised e =>
    cases e with
    | other e => exact .ends hinner (fun _ h => nomatch h)
    | exit e => exact .ends hinner (fun _ h => nomatch h)
    | transient exc =>
      simp only
      split
      · exact S.pause_leaves b action attempt hinner (by omega)
      · exact .again hinner (fun h => absurd h (by omega)) rfl

theorem Leaves.goesOn_iff {S : RetryingExecutorService} {b : Behaviour α} {attempt : Nat}
    {a : Attempt K α} (h : S.Leaves b attempt a) :
    S.GoesOn b attempt ↔ ∃ steps exc, a = .again steps exc := by
  cases h with
  | again inner undisturbed _ => exact iff_of_true ⟨_, inner, undisturbed⟩ ⟨_, _, rfl⟩
  | disturbed inner earlier disturbed _ =>
    refine iff_of_false (fun ⟨exc, hexc, hcalm⟩ => ?_) (by simp)
    rw [inner] at hexc
    cases hexc
    exact disturbed (hcalm earlier)
  | ends inner settled =>
    exact iff_of_false (fun ⟨exc, hexc, _⟩ => settled exc (inner.symm.trans hexc)) (by simp)

/-- **What the attempts do.** Each is made when those before it go on, and the last one made
decides the end unless its pause is disturbed. -/
theorem attempts_spec (S : RetryingExecutorService) (b : Behaviour α) (action : Action) (kwargs : K)
    (n : Nat) : ∀ (k : Nat) (last : Option TransientExecutionError), k + n = S.maxAttempts →
      let o := S.attempts b action kwargs last (List.range' k n)
      (∀ j, j < o.invocations ↔ j < n ∧ ∀ i < j, S.GoesOn b (k + i)) ∧
        (0 < n → ∃ m, o.invocations = m + 1 ∧ (o.result = b.inner (k + m) ∨
          (∃ exc, b.inner (k + m) = .raised (.transient exc)) ∧ k + m + 1 < S.maxAttempts)) := by
  induction n with
  | zero =>
    intro k last _
    exact ⟨fun j => by simp [attempts, Outcome.invocations], fun h => absurd h (by omega)⟩
  | succ n ih =>
    intro k last hk
    have hleaves := attempted_leaves (K := K) S b action k
    have hgoes := hleaves.goesOn_iff
    rw [List.range'_succ, attempts]
    cases hatt : attempted (K := K) S b action k with
    | ends steps result =>
      rw [hatt] at hleaves hgoes
      have hstop : ¬ S.GoesOn b k := fun h => by simpa using hgoes.mp h
      have hone : ({ steps := .invoked action kwargs :: steps, result := result } : Outcome K α).invocations
          = 1 := by
        cases hleaves with
        | disturbed _ _ _ quiet => simp [Outcome.invocations, List.countP_cons, quiet, Step.isInvoked]
        | ends => rfl
      refine ⟨fun j => ?_, fun _ => ⟨0, hone, ?_⟩⟩
      · show j < Outcome.invocations _ ↔ _
        rw [hone]
        constructor
        · intro hj
          exact ⟨by omega, fun i hi => absurd hi (by omega)⟩
        · intro ⟨_, hall⟩
          by_contra hge
          exact hstop (hall 0 (by omega))
      · cases hleaves with
        | disturbed inner earlier _ _ => exact .inr ⟨⟨_, inner⟩, earlier⟩
        | ends inner _ => exact .inl inner.symm
    | again steps exc =>
      rw [hatt] at hleaves hgoes
      obtain ⟨hcount, hend⟩ := ih (k + 1) (some exc) (by omega)
      have hgo : S.GoesOn b k := hgoes.mpr ⟨_, _, rfl⟩
      have hmore : ∀ o : Outcome K α, ({ steps := .invoked action kwargs :: (steps ++ o.steps)
                                         result := o.result } : Outcome K α).invocations =
          o.invocations + 1 := by
        intro o
        cases hleaves with
        | again _ _ quiet =>
          simp [Outcome.invocations, List.countP_cons, List.countP_append, quiet, Step.isInvoked]
      refine ⟨fun j => ?_, fun _ => ?_⟩
      · show j < Outcome.invocations _ ↔ _
        rw [hmore]
        cases j with
        | zero => simp
        | succ j =>
          rw [Nat.succ_lt_succ_iff, Nat.succ_lt_succ_iff, hcount j]
          refine and_congr_right (fun _ => ?_)
          constructor
          · intro hall i hi
            cases i with
            | zero => exact hgo
            | succ i => simpa only [Nat.add_assoc, Nat.add_comm 1 i] using hall i (by omega)
          · intro hall i hi
            simpa only [Nat.add_assoc, Nat.add_comm 1 i] using hall (i + 1) (by omega)
      · cases n with
        | zero =>
          refine ⟨0, by rw [hmore]; rfl, .inl ?_⟩
          cases hleaves with
          | again inner _ _ => exact inner.symm
        | succ n =>
          obtain ⟨m, hm, hresult⟩ := hend (by omega)
          refine ⟨m + 1, by rw [hmore, hm], ?_⟩
          simpa only [Nat.add_assoc, Nat.add_comm 1 m, Nat.add_left_comm 1] using hresult

/-! ### The law of retries -/

/-- An action whose effect may be repeated. -/
def Repeatable (action : Action) : Prop :=
  action.effectClass = .readOnly ∨ action.effectClass = .idempotentWrite

/-- What is asked of a call, by the ends of its attempts. -/
structure RetryLaw (S : RetryingExecutorService) (b : Behaviour α) (action : Action) (o : Outcome K α) :
    Prop where
  bounded : o.invocations ≤ S.maxAttempts
  permanent : ∀ k < o.invocations, ∀ e, b.inner k = .raised e → (∀ exc, e ≠ .transient exc) →
    o.invocations = k + 1 ∧ o.result = .raised e
  exhausted : o.invocations = S.maxAttempts → ∀ exc,
    b.inner (S.maxAttempts - 1) = .raised (.transient exc) → o.result = .raised (.transient exc)
  unrepeated : ∀ k < o.invocations, ∀ exc, b.inner k = .raised (.transient exc) →
    exc.mayHaveExecuted = true → ¬ Repeatable action → o.invocations = k + 1

theorem execute_spec (S : RetryingExecutorService) (b : Behaviour α) (action : Action) (kwargs : K) :
    (∀ k, k < (S.execute b action kwargs).invocations ↔ k < S.maxAttempts ∧ ∀ i < k, S.GoesOn b i) ∧
      ∃ m, (S.execute b action kwargs).invocations = m + 1 ∧
        ((S.execute b action kwargs).result = b.inner m ∨
          (∃ exc, b.inner m = .raised (.transient exc)) ∧ m + 1 < S.maxAttempts) := by
  obtain ⟨hcount, hend⟩ := S.attempts_spec b action kwargs S.maxAttempts 0 none (by omega)
  rw [← List.range_eq_range'] at hcount hend
  simp only [Nat.zero_add] at hcount hend
  exact ⟨hcount, hend S.positive⟩

/-- **Retries keep the law exactly when no effect that may have happened is retried.** -/
theorem retries_safe_iff (S : RetryingExecutorService) (b : Behaviour α) (action : Action) (kwargs : K) :
    S.RetryLaw b action (S.execute b action kwargs) ↔
      (Repeatable action ∨ ∀ k, k + 1 < S.maxAttempts → (∀ i ≤ k, S.GoesOn b i) →
        ∀ exc, b.inner k = .raised (.transient exc) → exc.mayHaveExecuted = false) := by
  obtain ⟨hcount, m, hm, hresult⟩ := S.execute_spec b action kwargs
  constructor
  · intro hlaw
    by_cases hrepeatable : Repeatable action
    · exact .inl hrepeatable
    refine .inr (fun k hk hgoes exc hexc => ?_)
    by_contra hmay
    have hlast := hlaw.unrepeated k ((hcount k).mpr ⟨by omega, fun i hi => hgoes i (by omega)⟩) exc hexc
      (by simpa using hmay) hrepeatable
    have hnext := (hcount (k + 1)).mpr ⟨hk, fun i hi => hgoes i (by omega)⟩
    omega
  · intro hsafe
    refine ⟨?_, ?_, ?_, ?_⟩
    · have := (hcount m).mp (by omega)
      omega
    · intro k hk e he hpermanent
      have hstop : ¬ S.GoesOn b k := fun ⟨exc, hexc, _⟩ =>
        hpermanent exc (by rw [he] at hexc; exact (End.raised.inj hexc))
      have hkm : k = m := by
        by_contra hne
        exact hstop (((hcount m).mp (by omega)).2 k (by omega))
      subst hkm
      refine ⟨hm, ?_⟩
      rcases hresult with hresult | ⟨⟨exc, hexc⟩, _⟩
      · rw [hresult, he]
      · exact absurd (End.raised.inj (he.symm.trans hexc)) (hpermanent exc)
    · intro hall exc hexc
      have hmax : S.maxAttempts - 1 = m := by omega
      rcases hresult with hresult | ⟨_, hearlier⟩
      · rw [hresult, ← hmax, hexc]
      · omega
    · intro k hk exc hexc hmay hunsafe
      by_contra hmore
      have hgoes := (hcount (k + 1)).mp (by omega)
      rcases hsafe with hrepeatable | hsafe
      · exact hunsafe hrepeatable
      · have := hsafe k hgoes.1 (fun i hi => hgoes.2 i (by omega)) exc hexc
        rw [hmay] at this
        cases this

end RetryingExecutorService

/-- The inner executor times out after the remote side has acted, and would return at once if it
were asked again. -/
def timedOutOnce : Behaviour String where
  inner := fun attempt =>
    if attempt = 0 then .raised (.transient (timeoutTransientError "deadline" none)) else .returned "ok"
  draw := fun _ => 0
  sleep := fun _ => .returned ()
  hook := fun _ => none

/-- An irreversible write that may have happened is executed again. -/
theorem timed_out_write_repeated :
    let S : RetryingExecutorService := { maxAttempts := 2, positive := by decide }
    let payment : Action := { actionId := "pay", runId := "run", actionType := "transfer",
                              effectClass := .irreversibleWrite }
    (S.execute timedOutOnce payment ()).invocations = 2 ∧
      ¬ S.RetryLaw timedOutOnce payment (S.execute timedOutOnce payment ()) := by
  refine ⟨by decide, fun hlaw => ?_⟩
  have hlast := hlaw.unrepeated 0 (by decide) (timeoutTransientError "deadline" none) rfl rfl
    (by rintro (h | h) <;> cases h)
  revert hlast
  decide

end AgentKernel.Execution
