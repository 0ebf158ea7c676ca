import Mathlib.Tactic.Linarith
import AgentKernel.Lib.Run
import AgentKernel.Projection.Fold
import AgentKernel.Recovery.Gate

/-! The law of the circuit breaker.

`Rejects` is the law, read off the whole history of calls: a class is turned away when at least
`threshold` calls for it were let through since its last success and the last of them is less
than the cooldown ago. The gate keeps two numbers instead. `circuit_breaker_law_iff` says when
the numbers know what the history says: every call that was let through must have been recorded
once the threshold is reached, and calls that end in reflection or in a planner error are not. -/
namespace AgentKernel.Recovery
open Lib Workflow

/-! ### The law -/

/-- What a call left behind. -/
inductive Past where
  /-- `decide`; whether it was turned away or recorded as a failure, and when it ended. -/
  | decided (effectClass : Option String) (rejected recorded : Bool) (endedAt : ℚ)
  | succeeded (effectClass : String)

/-- The calls for a class that were let through since its last success, newest first: when they
ended, and whether they were recorded. The history is newest first too. -/
def letThrough (effectClass : String) : List Past → List (ℚ × Bool)
  | [] => []
  | .succeeded other :: rest => if other = effectClass then [] else letThrough effectClass rest
  | .decided other rejected recorded endedAt :: rest =>
    if other = some effectClass ∧ rejected = false then
      (endedAt, recorded) :: letThrough effectClass rest
    else letThrough effectClass rest

/-- **The law**: a call for the class at this time is turned away. -/
def Rejects (policy : CircuitBreakerPolicy) (history : List Past) (effectClass : String) (now : ℚ) :
    Prop :=
  policy.threshold ≤ (letThrough effectClass history).length ∧
    ∃ last ∈ (letThrough effectClass history).head?, (now - last.1) * 1000 < policy.halfOpenAfterMs

/-! ### Calls to one gate -/

inductive GateCall where
  | decide (input : RecoveryInput) (reflection : ReflectionAnswer) (checkedAt endedAt : ℚ)
  | onActionSuccess (effectClass : String)

/-- A gate in use: when the clock was last read, and what has happened so far. -/
structure GateRun (B : CircuitBreakerStore) where
  gate : GateState B := {}
  clock : ℚ
  history : List Past := []

section
variable (G : PlannedRecoveryGate) {B : CircuitBreakerStore}

/-- The decision is one that is recorded: there is a plan, and reflection has no part in it. -/
def PlannedRecoveryGate.records (input : RecoveryInput) : Bool :=
  match G.base input with
  | .error _ => false
  | .ok base => !G.shouldReflect input base.mode

def GateRun.next (w : GateRun B) : GateCall → GateRun B
  | .decide input reflection checkedAt endedAt =>
    let rejected := G.isCircuitOpen B w.gate.breaker input.failedEffectClass checkedAt
    { gate := (G.decide w.gate input reflection checkedAt endedAt).2
      clock := endedAt
      history :=
        .decided input.failedEffectClass rejected (!rejected && G.records input) endedAt :: w.history }
  | .onActionSuccess effectClass =>
    { w with
      gate := w.gate.onActionSuccess effectClass
      history := .succeeded effectClass :: w.history }

/-- The readings never go back. -/
def ClockGoesOn (w : GateRun B) : GateCall → Prop
  | .decide _ _ checkedAt endedAt => w.clock ≤ checkedAt ∧ checkedAt ≤ endedAt
  | .onActionSuccess _ => True

/-- What the breaker owes after any calls: whatever is asked next, it is turned away exactly when
the law says so, and is answered as by a gate without a breaker otherwise; being turned away
changes nothing; and no class has a say in another's. -/
structure BreakerLaw (policy : CircuitBreakerPolicy) (w : GateRun B) : Prop where
  rejects : ∀ effectClass now, w.clock ≤ now →
    (G.isCircuitOpen B w.gate.breaker (some effectClass) now = true ↔
      Rejects policy w.history effectClass now)
  answers : ∀ input reflection checkedAt endedAt,
    (G.decide w.gate input reflection checkedAt endedAt).1 =
      if G.isCircuitOpen B w.gate.breaker input.failedEffectClass checkedAt then
        .ok
          { runId := input.runId
            mode := .abort
            reason := input.reasonCode ++ ":circuit_open"
            failureCount := (w.gate.failureCounts.get? input.runId).getD 0 + 1 }
      else
        (PlannedRecoveryGate.decide { G with circuitBreakerPolicy := none } w.gate input reflection
          checkedAt endedAt).1
  unmoved : ∀ input reflection checkedAt endedAt,
    G.isCircuitOpen B w.gate.breaker input.failedEffectClass checkedAt = true →
      (w.next G (.decide input reflection checkedAt endedAt)).gate.breaker = w.gate.breaker
  apart : ∀ input reflection checkedAt endedAt effectClass now,
    input.failedEffectClass ≠ some effectClass →
      G.isCircuitOpen B (w.next G (.decide input reflection checkedAt endedAt)).gate.breaker
          (some effectClass) now =
        G.isCircuitOpen B w.gate.breaker (some effectClass) now

/-- The call leaves a class at its threshold only if every call of the class since its last
success has been recorded, this one included. Without a cooldown nothing is ever turned away. -/
def AllRecorded (policy : CircuitBreakerPolicy) (w : GateRun B) : GateCall → Prop
  | .decide input _ checkedAt _ => ∀ effectClass, input.failedEffectClass = some effectClass →
    G.isCircuitOpen B w.gate.breaker (some effectClass) checkedAt = false →
    0 < policy.halfOpenAfterMs →
    policy.threshold ≤ (letThrough effectClass w.history).length + 1 →
      G.records input = true ∧ ∀ call ∈ letThrough effectClass w.history, call.2 = true
  | .onActionSuccess _ => True

end

/-! ### What the store knows -/

section
variable {G : PlannedRecoveryGate} {B : CircuitBreakerStore} {policy : CircuitBreakerPolicy}

/-- The two numbers of a class as the history gives them. -/
def counted (effectClass : String) (history : List Past) : Int × ℚ :=
  (((letThrough effectClass history).countP Prod.snd : Nat),
    (((letThrough effectClass history).find? Prod.snd).map Prod.fst).getD 0)

/-- The store counts what was recorded, and every call ended in the past. -/
structure Counts (w : GateRun B) : Prop where
  state : ∀ effectClass, B.getState w.gate.breaker effectClass = counted effectClass w.history
  past : ∀ effectClass, ∀ call ∈ letThrough effectClass w.history, call.1 ≤ w.clock

/-- The breaker after a decision. -/
theorem decide_breaker (s : GateState B) (input : RecoveryInput) (reflection : ReflectionAnswer)
    (checkedAt endedAt : ℚ) :
    (G.decide s input reflection checkedAt endedAt).2.breaker =
      if !G.isCircuitOpen B s.breaker input.failedEffectClass checkedAt && G.records input then
        G.recordCircuitFailure B s.breaker input.failedEffectClass endedAt
      else s.breaker := by
  unfold PlannedRecoveryGate.decide PlannedRecoveryGate.records
  cases G.isCircuitOpen B s.breaker input.failedEffectClass checkedAt with
  | true => rfl
  | false =>
    cases G.base input with
    | error e => rfl
    | ok base => cases hr : G.shouldReflect input base.mode <;> simp [hr]

/-- A call that is let through is answered as by a gate without a breaker. -/
theorem decide_of_closed {s : GateState B} {input : RecoveryInput} {checkedAt : ℚ}
    (hclosed : G.isCircuitOpen B s.breaker input.failedEffectClass checkedAt = false)
    (reflection : ReflectionAnswer) (endedAt : ℚ) :
    (G.decide s input reflection checkedAt endedAt).1 =
      (PlannedRecoveryGate.decide { G with circuitBreakerPolicy := none } s input reflection checkedAt
        endedAt).1 := by
  have hwithout : PlannedRecoveryGate.isCircuitOpen { G with circuitBreakerPolicy := none } B s.breaker
      input.failedEffectClass checkedAt = false := rfl
  have hbase : PlannedRecoveryGate.base { G with circuitBreakerPolicy := none } input = G.base input :=
    rfl
  unfold PlannedRecoveryGate.decide
  simp only [hclosed, hwithout, hbase, Bool.false_eq_true, if_false]
  cases G.base input with
  | error e => rfl
  | ok base =>
    dsimp only
    rw [show PlannedRecoveryGate.shouldReflect { G with circuitBreakerPolicy := none } input base.mode =
      G.shouldReflect input base.mode from rfl]
    split <;> rfl

theorem getState_recordCircuitFailure (hp : G.circuitBreakerPolicy = some policy) (s : B.State)
    (recorded : Option String) (now : ℚ) (effectClass : String) :
    B.getState (G.recordCircuitFailure B s recorded now) effectClass =
      if recorded = some effectClass then ((B.getState s effectClass).1 + 1, now)
      else B.getState s effectClass := by
  cases recorded with
  | none => simp [PlannedRecoveryGate.recordCircuitFailure, hp]
  | some other =>
    simp only [PlannedRecoveryGate.recordCircuitFailure, hp, B.getState_record, Option.some.injEq,
      eq_comm (a := other)]
    split
    case isTrue he => rw [he]
    case isFalse => rfl

theorem counted_other {effectClass : String} {e : Past} {history : List Past}
    (h : letThrough effectClass (e :: history) = letThrough effectClass history) :
    counted effectClass (e :: history) = counted effectClass history := by
  rw [counted, counted, h]

/-- A recorded call adds one and is the last; one that is not recorded leaves no trace. -/
theorem counted_letThrough (effectClass : String) (recorded : Bool) (endedAt : ℚ)
    (history : List Past) :
    counted effectClass (.decided (some effectClass) false recorded endedAt :: history) =
      if recorded then ((counted effectClass history).1 + 1, endedAt)
      else counted effectClass history := by
  cases recorded <;> simp [counted, letThrough]

theorem letThrough_decided {effectClass : String} {other : Option String} {rejected recorded : Bool}
    {endedAt : ℚ} {history : List Past} (h : ¬ (other = some effectClass ∧ rejected = false)) :
    letThrough effectClass (.decided other rejected recorded endedAt :: history) =
      letThrough effectClass history :=
  if_neg h

/-- **The store keeps up with the history**, whatever is called. -/
theorem Counts.next {w : GateRun B} (h : Counts w) (hp : G.circuitBreakerPolicy = some policy)
    {call : GateCall} (hclock : ClockGoesOn w call) : Counts (w.next G call) := by
  cases call with
  | onActionSuccess other =>
    constructor
    case state =>
      intro effectClass
      show B.getState (B.reset w.gate.breaker other) effectClass = _
      rw [B.getState_reset]
      by_cases he : effectClass = other
      · subst he
        simp [GateRun.next, counted, letThrough]
      · rw [if_neg he, h.state]
        exact (counted_other (by rw [letThrough, if_neg (Ne.symm he)])).symm
    case past =>
      intro effectClass call hcall
      by_cases he : other = effectClass
      · simp [GateRun.next, letThrough, he] at hcall
      · rw [GateRun.next, letThrough, if_neg he] at hcall
        exact h.past effectClass call hcall
  | decide input reflection checkedAt endedAt =>
    obtain ⟨hchecked, hended⟩ := hclock
    have hgoes : w.clock ≤ endedAt := le_trans hchecked hended
    constructor
    case state =>
      intro effectClass
      show B.getState (G.decide w.gate input reflection checkedAt endedAt).2.breaker effectClass = _
      rw [decide_breaker]
      by_cases hthrough : input.failedEffectClass = some effectClass ∧
          G.isCircuitOpen B w.gate.breaker input.failedEffectClass checkedAt = false
      · obtain ⟨hclass, hclosed⟩ := hthrough
        rw [hclass] at hclosed
        simp only [GateRun.next, hclass, hclosed]
        rw [counted_letThrough, ← h.state]
        cases G.records input with
        | true => simp [getState_recordCircuitFailure hp]
        | false => simp
      · rw [show counted effectClass (w.next G (.decide input reflection checkedAt endedAt)).history = _
          from counted_other (letThrough_decided hthrough), ← h.state]
        split
        case isFalse => rfl
        case isTrue hrecorded =>
          simp only [Bool.and_eq_true, Bool.not_eq_true'] at hrecorded
          rw [getState_recordCircuitFailure hp, if_neg (fun hclass => hthrough ⟨hclass, hrecorded.1⟩)]
    case past =>
      intro effectClass call hcall
      by_cases hthrough : input.failedEffectClass = some effectClass ∧
          G.isCircuitOpen B w.gate.breaker input.failedEffectClass checkedAt = false
      · rw [GateRun.next, letThrough, if_pos hthrough] at hcall
        rcases List.mem_cons.mp hcall with rfl | hcall
        · exact le_refl _
        · exact le_trans (h.past effectClass call hcall) hgoes
      · rw [GateRun.next, letThrough_decided hthrough] at hcall
        exact le_trans (h.past effectClass call hcall) hgoes

/-! ### When the store knows enough -/

/-- A class whose calls have not all been recorded is below its threshold still; and without any
call, a threshold of nothing is no trouble once the clock has run for the cooldown. -/
structure Informed (policy : CircuitBreakerPolicy) (w : GateRun B) : Prop where
  counts : Counts w
  known : ∀ effectClass, policy.halfOpenAfterMs ≤ 0 ∨
    ((letThrough effectClass w.history).length : Int) < policy.threshold ∨
    ∀ call ∈ letThrough effectClass w.history, call.2 = true
  begun : 1 ≤ policy.threshold ∨ (policy.halfOpenAfterMs : ℚ) ≤ w.clock * 1000

theorem isCircuitOpen_iff (hp : G.circuitBreakerPolicy = some policy) {w : GateRun B} (h : Counts w)
    (effectClass : String) (now : ℚ) :
    G.isCircuitOpen B w.gate.breaker (some effectClass) now = true ↔
      policy.threshold ≤ (counted effectClass w.history).1 ∧
        (now - (counted effectClass w.history).2) * 1000 < policy.halfOpenAfterMs := by
  rw [← h.state]
  simp [PlannedRecoveryGate.isCircuitOpen, hp]

/-- The last recorded call, if there is one, is over. -/
theorem Counts.last_le {w : GateRun B} (h : Counts w) {effectClass : String}
    (hcount : 0 < (counted effectClass w.history).1) : (counted effectClass w.history).2 ≤ w.clock := by
  have hsome : 0 < (letThrough effectClass w.history).countP Prod.snd := by
    simpa [counted] using hcount
  obtain ⟨call, hcall, hrecorded⟩ := List.countP_pos_iff.mp hsome
  cases hfind : (letThrough effectClass w.history).find? Prod.snd with
  | none => exact absurd hrecorded (List.find?_eq_none.mp hfind call hcall)
  | some last =>
    simp only [counted, hfind, Option.map_some, Option.getD_some]
    exact h.past effectClass last (List.mem_of_find?_eq_some hfind)

theorem counted_of_recorded {effectClass : String} {history : List Past}
    (h : ∀ call ∈ letThrough effectClass history, call.2 = true) :
    counted effectClass history = (((letThrough effectClass history).length : Int),
      ((letThrough effectClass history).head?.map Prod.fst).getD 0) := by
  rw [counted, List.countP_eq_length.mpr h]
  cases hcalls : letThrough effectClass history with
  | nil => rfl
  | cons call rest =>
    have hcall : call.2 = true := h call (by rw [hcalls]; exact List.mem_cons_self)
    simp [hcall]

/-- **A gate that knows enough keeps the law.** -/
theorem Informed.rejects (hp : G.circuitBreakerPolicy = some policy) {w : GateRun B}
    (h : Informed policy w) (effectClass : String) {now : ℚ} (hnow : w.clock ≤ now) :
    G.isCircuitOpen B w.gate.breaker (some effectClass) now = true ↔
      Rejects policy w.history effectClass now := by
  rw [isCircuitOpen_iff hp h.counts]
  -- before any call, the default of the last failure is long enough ago
  have hbegun : policy.threshold ≤ 0 → ¬ now * 1000 < policy.halfOpenAfterMs := by
    intro hthreshold hearly
    rcases h.begun with hb | hb
    · omega
    · linarith
  rcases h.known effectClass with hcool | hbelow | hrecorded
  · have hcool' : (policy.halfOpenAfterMs : ℚ) ≤ 0 := by exact_mod_cast hcool
    refine iff_of_false ?_ ?_
    · rintro ⟨hthreshold, hlate⟩
      by_cases hcount : 0 < (counted effectClass w.history).1
      · have hlast := h.counts.last_le hcount
        linarith
      · have hcounted : counted effectClass w.history = (0, 0) := by
          have hzero : (letThrough effectClass w.history).countP Prod.snd = 0 := by
            simp only [counted] at hcount
            omega
          have hnone : (letThrough effectClass w.history).find? Prod.snd = none :=
            List.find?_eq_none.mpr
              (fun call hcall => by simpa using List.countP_eq_zero.mp hzero call hcall)
          simp [counted, hzero, hnone]
        rw [hcounted] at hthreshold hlate
        exact hbegun hthreshold (by simpa using hlate)
    · rintro ⟨_, last, hlast, hlate⟩
      have hpast := h.counts.past effectClass last (List.mem_of_mem_head? hlast)
      linarith
  · have hcount : (counted effectClass w.history).1 ≤ (letThrough effectClass w.history).length := by
      simpa [counted] using List.countP_le_length
    exact iff_of_false (fun hopen => by omega) (fun hlaw => by have := hlaw.1; omega)
  · rw [counted_of_recorded hrecorded, Rejects]
    cases hcalls : letThrough effectClass w.history with
    | nil =>
      refine iff_of_false ?_ (by simp)
      rintro ⟨hthreshold, hlate⟩
      exact hbegun (by simpa using hthreshold) (by simpa using hlate)
    | cons call rest => simp

/-- Nothing moves for other classes. -/
theorem isCircuitOpen_other (hp : G.circuitBreakerPolicy = some policy) (w : GateRun B)
    (input : RecoveryInput) (reflection : ReflectionAnswer) (checkedAt endedAt : ℚ)
    {effectClass : String} (hclass : input.failedEffectClass ≠ some effectClass) (now : ℚ) :
    G.isCircuitOpen B (w.next G (.decide input reflection checkedAt endedAt)).gate.breaker
        (some effectClass) now =
      G.isCircuitOpen B w.gate.breaker (some effectClass) now := by
  have hstate : B.getState (w.next G (.decide input reflection checkedAt endedAt)).gate.breaker
      effectClass = B.getState w.gate.breaker effectClass := by
    show B.getState (G.decide w.gate input reflection checkedAt endedAt).2.breaker effectClass = _
    rw [decide_breaker]
    split
    · rw [getState_recordCircuitFailure hp, if_neg hclass]
    · rfl
  simp only [PlannedRecoveryGate.isCircuitOpen, hp, hstate]

theorem Informed.law (hp : G.circuitBreakerPolicy = some policy) {w : GateRun B}
    (h : Informed policy w) : BreakerLaw G policy w where
  rejects effectClass _ hnow := h.rejects hp effectClass hnow
  answers input reflection checkedAt endedAt := by
    split
    case isTrue hopen =>
      rw [PlannedRecoveryGate.decide, hopen]
      rfl
    case isFalse hclosed => exact decide_of_closed (Bool.eq_false_iff.mpr hclosed) reflection endedAt
  unmoved input reflection checkedAt endedAt hopen := by
    show (G.decide w.gate input reflection checkedAt endedAt).2.breaker = _
    rw [decide_breaker, hopen]
    rfl
  apart input reflection checkedAt endedAt _ now hclass :=
    isCircuitOpen_other hp w input reflection checkedAt endedAt hclass now

theorem ClockGoesOn.le {w : GateRun B} {call : GateCall} (h : ClockGoesOn w call) :
    w.clock ≤ (w.next G call).clock := by
  cases call with
  | decide input reflection checkedAt endedAt => exact le_trans h.1 h.2
  | onActionSuccess effectClass => exact le_refl _

/-- A call under the condition leaves a gate that knows enough. -/
theorem Informed.next (hp : G.circuitBreakerPolicy = some policy) {w : GateRun B}
    (h : Informed policy w) {call : GateCall} (hclock : ClockGoesOn w call)
    (hrecorded : AllRecorded G policy w call) : Informed policy (w.next G call) where
  counts := h.counts.next hp hclock
  begun := by
    have hle := ClockGoesOn.le (G := G) hclock
    exact h.begun.imp_right (fun hb => by linarith)
  known := by
    intro effectClass
    cases call with
    | onActionSuccess other =>
      by_cases he : other = effectClass
      · simp [GateRun.next, letThrough, he]
      · rw [GateRun.next, letThrough, if_neg he]
        exact h.known effectClass
    | decide input reflection checkedAt endedAt =>
      by_cases hthrough : input.failedEffectClass = some effectClass ∧
          G.isCircuitOpen B w.gate.breaker input.failedEffectClass checkedAt = false
      · rw [GateRun.next, letThrough, if_pos hthrough]
        obtain ⟨hclass, hclosed⟩ := hthrough
        rw [hclass] at hclosed
        by_cases hcool : policy.halfOpenAfterMs ≤ 0
        · exact .inl hcool
        · by_cases hbelow :
              ((letThrough effectClass w.history).length : Int) + 1 < policy.threshold
          · exact .inr (.inl (by simpa using hbelow))
          · obtain ⟨hrec, hall⟩ :=
              hrecorded effectClass hclass hclosed (by omega) (by omega)
            refine .inr (.inr (fun call hcall => ?_))
            rcases List.mem_cons.mp hcall with rfl | hcall
            · simp [hclass, hclosed, hrec]
            · exact hall call hcall
      · rw [GateRun.next, letThrough_decided hthrough]
        exact h.known effectClass

/-- **The condition is needed**: where the law holds after a call, the call met it. -/
theorem allRecorded_of_law (hp : G.circuitBreakerPolicy = some policy) {w : GateRun B}
    (h : Informed policy w) {call : GateCall} (hclock : ClockGoesOn w call)
    (hlaw : BreakerLaw G policy (w.next G call)) : AllRecorded G policy w call := by
  cases call with
  | onActionSuccess other => exact trivial
  | decide input reflection checkedAt endedAt =>
    intro effectClass hclass hclosed hcool hreached
    have hthrough : letThrough effectClass
        (w.next G (.decide input reflection checkedAt endedAt)).history =
        (endedAt, G.records input) :: letThrough effectClass w.history := by
      simp [GateRun.next, letThrough, hclass, hclosed]
    -- by the law the class is closed off the moment the call has ended
    have hopen := (hlaw.rejects effectClass endedAt (le_refl _)).mpr (by
      rw [Rejects, hthrough]
      refine ⟨by simpa using hreached, _, rfl, ?_⟩
      simpa using hcool)
    have hcounts := h.counts.next hp hclock
    rw [isCircuitOpen_iff hp hcounts] at hopen
    have hrec : G.records input = true := by
      by_contra hnot
      have hsame : counted effectClass (w.next G (.decide input reflection checkedAt endedAt)).history =
          counted effectClass w.history := by
        simp [GateRun.next, hclass, hclosed, counted_letThrough, hnot]
      rw [hsame] at hopen
      -- then it was closed off already when the call was let through
      have hearlier : G.isCircuitOpen B w.gate.breaker (some effectClass) checkedAt = true :=
        (isCircuitOpen_iff hp h.counts effectClass checkedAt).mpr
          ⟨hopen.1, by have := hclock.2; linarith [hopen.2]⟩
      rw [hclosed] at hearlier
      cases hearlier
    refine ⟨hrec, ?_⟩
    rcases h.known effectClass with hnone | hbelow | hall
    · omega
    · refine List.countP_eq_length.mp (le_antisymm List.countP_le_length ?_)
      have hcount := hopen.1
      rw [counted, hthrough, List.countP_cons, if_pos hrec] at hcount
      push_cast at hcount
      omega
    · exact hall

/-- A gate that nothing has happened to keeps the law exactly when the threshold is positive or
the clock has run for the cooldown. -/
theorem begun_of_law (hp : G.circuitBreakerPolicy = some policy) {clock : ℚ}
    (hlaw : BreakerLaw (B := B) G policy { clock := clock }) :
    1 ≤ policy.threshold ∨ (policy.halfOpenAfterMs : ℚ) ≤ clock * 1000 := by
  by_contra hnot
  obtain ⟨hthreshold, hearly⟩ := not_or.mp hnot
  have hopen := (hlaw.rejects "" clock (le_refl _)).mp (by
    simp only [PlannedRecoveryGate.isCircuitOpen, hp, B.getState_empty, sub_zero]
    rw [if_neg (by omega)]
    exact decide_eq_true (not_le.mp hearly))
  obtain ⟨_, last, hlast, _⟩ := hopen
  cases hlast

theorem informed_start {clock : ℚ}
    (h : 1 ≤ policy.threshold ∨ (policy.halfOpenAfterMs : ℚ) ≤ clock * 1000) :
    Informed (B := B) policy { clock := clock } where
  counts := ⟨fun effectClass => B.getState_empty effectClass, fun _ _ hcall => nomatch hcall⟩
  known := fun _ => .inr (.inr (fun _ hcall => nomatch hcall))
  begun := h

end

/-- **When the breaker keeps its law.** Throughout any calls, over any store of counts, a call is
turned away exactly when the history says so, if and only if the threshold is positive (or the
clock has run for the cooldown before the first call) and every call that leaves its class at the
threshold finds all of the class's calls since its last success recorded, its own included. -/
theorem circuit_breaker_law_iff (G : PlannedRecoveryGate) (B : CircuitBreakerStore)
    {policy : CircuitBreakerPolicy} (hp : G.circuitBreakerPolicy = some policy) (clock : ℚ)
    (calls : List GateCall)
    (readings : Along (GateRun.next G) ClockGoesOn ({ clock := clock } : GateRun B) calls) :
    (∀ pre, pre <+: calls →
      BreakerLaw G policy (run (GateRun.next G) ({ clock := clock } : GateRun B) pre)) ↔
      (1 ≤ policy.threshold ∨ (policy.halfOpenAfterMs : ℚ) ≤ clock * 1000) ∧
        Along (GateRun.next G) (AllRecorded G policy) ({ clock := clock } : GateRun B) calls := by
  have exact : (1 ≤ policy.threshold ∨ (policy.halfOpenAfterMs : ℚ) ≤ clock * 1000) →
      ((∀ pre, pre <+: calls →
        BreakerLaw G policy (run (GateRun.next G) ({ clock := clock } : GateRun B) pre)) ↔
      Along (GateRun.next G) (AllRecorded G policy) ({ clock := clock } : GateRun B) calls) :=
    fun hbegun => forall_prefix_iff_along (I := BreakerLaw G policy) (J := Informed policy)
      (fun _ hw => hw.law hp)
      (fun _ _ hclock hw => ⟨allRecorded_of_law hp hw hclock, fun hc => (hw.next hp hclock hc).law hp⟩)
      (fun _ _ hclock hw hc => hw.next hp hclock hc) (informed_start hbegun) readings
  constructor
  · intro hall
    have hbegun := begun_of_law hp (hall [] List.nil_prefix)
    exact ⟨hbegun, (exact hbegun).mp hall⟩
  · rintro ⟨hbegun, halong⟩
    exact (exact hbegun).mpr halong

/-- A failure of `run-1` with the reason code `transient_io` or one that reflection takes up. -/
def failureOf (reasonCode : String) : RecoveryInput where
  runId := "run-1"
  reasonCode := reasonCode
  lifecycleState := .dispatching
  projection := Projection.defaultProjection "run-1"
  failedActionId := some "a"
  failedEffectClass := some "compensatable_write"

def shortBreaker : PlannedRecoveryGate where
  circuitBreakerPolicy := some ⟨2, 1000⟩

def transientAt (checkedAt endedAt : ℚ) : GateCall :=
  .decide (failureOf "transient_io") .loopFailed checkedAt endedAt

/-- Two failures, a rejection and a probe, with a cooldown of a second. -/
theorem circuit_breaker_law_probe :
    BreakerLaw shortBreaker ⟨2, 1000⟩
      (run (GateRun.next shortBreaker) ({ clock := 0 } : GateRun CircuitMemory.store)
        [transientAt 10 10, transientAt 10 (21 / 2), transientAt 11 11, transientAt 12 12]) := by
  have hpolicy : shortBreaker.circuitBreakerPolicy = some ⟨2, 1000⟩ := rfl
  refine (circuit_breaker_law_iff shortBreaker CircuitMemory.store hpolicy 0 _ ?_).mpr ?_ _
    List.prefix_rfl
  · refine ⟨?_, ?_, ?_, ?_, trivial⟩ <;> constructor <;>
      norm_num [GateRun.next, transientAt]
  refine ⟨.inl (by decide), ?_, ?_, ?_, ?_, trivial⟩
  all_goals
    intro effectClass hclass _ _ _
    obtain rfl := Option.some.inj hclass
    exact ⟨by decide +kernel, by decide +kernel⟩

def reflectingBreaker : PlannedRecoveryGate where
  circuitBreakerPolicy := some ⟨1, 30000⟩
  reflectionPolicy := some {}
  hasReasoningLoop := true
  hasReflectionBuilder := true

/-- One failure that reflection takes up: the class is at its threshold, and the next call is let
through all the same. -/
theorem reflection_is_not_counted :
    ¬ BreakerLaw reflectingBreaker ⟨1, 30000⟩
      (run (GateRun.next reflectingBreaker) ({ clock := 0 } : GateRun CircuitBreakerRows.store)
        [.decide (failureOf "runtime_error") .loopFailed 100 100]) := by
  intro law
  have hopen := (law.rejects "compensatable_write" 100 (le_refl _)).mpr
    ⟨by decide, _, rfl, by norm_num [GateRun.next]⟩
  exact absurd hopen (by decide)

/-! ### Consequences of the law -/

/-- Calls that are turned away do not extend the cooldown. -/
theorem rejects_cons_rejected {policy : CircuitBreakerPolicy} {history : List Past}
    {effectClass : String} (other : Option String) (recorded : Bool) (endedAt now : ℚ) :
    Rejects policy (.decided other true recorded endedAt :: history) effectClass now ↔
      Rejects policy history effectClass now := by
  rw [Rejects, letThrough_decided (by simp : ¬ (other = some effectClass ∧ true = false)), Rejects]

/-- **One probe.** At the threshold, a call that is let through closes the class off again for a
whole cooldown. -/
theorem rejects_after_probe {policy : CircuitBreakerPolicy} {history : List Past}
    {effectClass : String} (recorded : Bool) (endedAt now : ℚ)
    (reached : policy.threshold ≤ (letThrough effectClass history).length) :
    Rejects policy (.decided (some effectClass) false recorded endedAt :: history) effectClass now ↔
      (now - endedAt) * 1000 < policy.halfOpenAfterMs := by
  rw [Rejects, letThrough, if_pos ⟨rfl, rfl⟩]
  simp only [List.length_cons, List.head?_cons, Option.mem_some_iff, exists_eq_left']
  exact and_iff_right (by push_cast; omega)

end AgentKernel.Recovery
