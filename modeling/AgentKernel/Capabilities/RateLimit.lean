import AgentKernel.Lib.Run
import AgentKernel.Capabilities.Admission

/-! The rate limit of admission.

The service keeps, for each run, when actions of it were admitted, and drops what is older than a
minute only when the run asks again. `rate_limit_law` says that this answers as the whole history
would: an action that no other rule denies is admitted exactly while fewer actions of its run than
the policy allows were admitted in the last sixty seconds. -/
namespace AgentKernel.Capabilities
open Lib

/-! ### Calls to one service -/

/-- An `admit`. -/
structure AdmissionCall where
  /-- Nanoseconds since the call before. -/
  elapsed : Nat
  action : Action
  snapshot : CapabilitySnapshot
  /-- What the snapshot's policy resolves to, at this call. -/
  policy : TenantPolicy

structure AnsweredCall where
  runId : String
  askedAt : Int
  result : AdmissionResult
  deriving DecidableEq

/-- A service in use: when it was last asked, and what it answered so far. -/
structure AdmissionRun where
  windows : RateWindows := .empty
  clock : Int
  history : List AnsweredCall := []

namespace AdmissionRun
variable (w : AdmissionRun)

def evaluate (now : Int) (call : AdmissionCall) : Except PyError (AdmissionResult × RateWindows) :=
  evaluateAdmission (fun _ => .ok call.policy) w.windows now call.action call.snapshot

/-- The answer alone. -/
def ask (now : Int) (call : AdmissionCall) : Except PyError AdmissionResult :=
  Prod.fst <$> w.evaluate now call

def next (call : AdmissionCall) : AdmissionRun :=
  let now := w.clock + call.elapsed
  match w.evaluate now call with
  | .ok (result, windows) =>
    { windows := windows
      clock := now
      history := w.history ++ [⟨call.action.runId, now, result⟩] }
  | .error _ => { w with clock := now }

/-- How many actions of the run were admitted in the sixty seconds before. -/
def admittedWithin (runId : String) (now : Int) : Nat :=
  w.history.countP (fun call => call.runId = runId ∧ call.result.admitted ∧
    now - sixtySeconds ≤ call.askedAt ∧ call.askedAt ≤ now)

end AdmissionRun

/-- Rules 1 to 4. -/
def AdmissionCall.earlyDenial (call : AdmissionCall) : Option AdmissionResult :=
  (checkPermissionMode call.action call.snapshot).or
    ((checkBindingExistence call.action call.snapshot).or
      ((checkIdempotency call.action call.policy).or (checkRiskTier call.action call.policy)))

/-- The answer to a call when so many actions of the run were admitted. -/
def AdmissionCall.verdict (call : AdmissionCall) (admitted : Nat) : AdmissionResult :=
  match call.earlyDenial with
  | some result => result
  | none =>
    if call.policy.maxActionsPerMinute ≤ admitted then ⟨false, .quotaExceeded⟩ else ⟨true, .ok⟩

/-- **The law**, for a call in a state of the service. -/
structure RateLimitLaw (w : AdmissionRun) (call : AdmissionCall) : Prop where
  answers : w.ask (w.clock + call.elapsed) call =
    .ok (call.verdict (w.admittedWithin call.action.runId (w.clock + call.elapsed)))
  /-- Past the other rules, only the admissions of the last minute count. -/
  quota : call.earlyDenial = none →
    (w.ask (w.clock + call.elapsed) call = .ok ⟨false, .quotaExceeded⟩ ↔
      call.policy.maxActionsPerMinute ≤
        w.admittedWithin call.action.runId (w.clock + call.elapsed))
  /-- A call that is denied changes no later answer. -/
  denialsFree : ∀ result, w.ask (w.clock + call.elapsed) call = .ok result →
    result.admitted = false → ∀ later now, w.clock + call.elapsed ≤ now →
      (w.next call).ask now later = w.ask now later
  /-- A call of another run changes no later answer. -/
  apart : ∀ later now, later.action.runId ≠ call.action.runId → w.clock + call.elapsed ≤ now →
    (w.next call).ask now later = w.ask now later

/-! ### The windows -/

/-- Dropping what has expired from the front of a sorted list drops all that has. -/
theorem dropWhile_lt_eq_filter {l : List Int} (hsorted : l.Pairwise (· ≤ ·)) (x : Int) :
    l.dropWhile (fun t => t < x) = l.filter (fun t => x ≤ t) := by
  induction l with
  | nil => rfl
  | cons first rest ih =>
    obtain ⟨hfirst, hrest⟩ := List.pairwise_cons.mp hsorted
    by_cases hold : first < x
    · rw [List.dropWhile_cons_of_pos (by simpa using hold), ih hrest,
        List.filter_cons_of_neg (by simpa using hold)]
    · have hall : ∀ t ∈ first :: rest, decide (x ≤ t) = true := by
        intro t ht
        rcases List.mem_cons.mp ht with rfl | ht
        · simpa using hold
        · have := hfirst t ht
          simp only [decide_eq_true_eq]
          omega
      rw [List.dropWhile_cons_of_neg (by simpa using hold), List.filter_eq_self.mpr hall]

/-- What the rules come to, once the policy is resolved. -/
theorem AdmissionRun.evaluate_eq (w : AdmissionRun) (now : Int) (call : AdmissionCall) :
    w.evaluate now call =
      match call.earlyDenial with
      | some result => .ok (result, w.windows)
      | none =>
        match checkRateLimit w.windows now call.action call.policy with
        | (some result, windows) => .ok (result, windows)
        | (none, windows) => .ok (⟨true, .ok⟩, windows) := by
  unfold AdmissionRun.evaluate evaluateAdmission AdmissionCall.earlyDenial
  dsimp only
  cases checkPermissionMode call.action call.snapshot with
  | some result => rfl
  | none =>
    cases checkBindingExistence call.action call.snapshot with
    | some result => rfl
    | none =>
      cases checkIdempotency call.action call.policy with
      | some result => rfl
      | none =>
        cases checkRiskTier call.action call.policy with
        | some result => rfl
        | none => rfl

/-- When actions of the run were admitted. -/
def admittedTimes (runId : String) (history : List AnsweredCall) : List Int :=
  (history.filter (fun call => call.runId = runId ∧ call.result.admitted)).map AnsweredCall.askedAt

/-- The windows are sorted, lie in the past and hold every admission that can still count. -/
structure Represents (w : AdmissionRun) : Prop where
  sorted : ∀ runId, ((w.windows.get? runId).getD []).Pairwise (· ≤ ·)
  windowPast : ∀ runId, ∀ t ∈ (w.windows.get? runId).getD [], t ≤ w.clock
  past : ∀ call ∈ w.history, call.askedAt ≤ w.clock
  recent : ∀ runId now, w.clock ≤ now →
    ((w.windows.get? runId).getD []).filter (fun t => now - sixtySeconds ≤ t) =
      (admittedTimes runId w.history).filter (fun t => now - sixtySeconds ≤ t)

namespace Represents
variable {w : AdmissionRun}

/-- The window after the eviction has the length of the law's count. -/
theorem length_window (h : Represents w) (runId : String) {now : Int} (hnow : w.clock ≤ now) :
    (((w.windows.get? runId).getD []).dropWhile (fun t => t < now - sixtySeconds)).length =
      w.admittedWithin runId now := by
  rw [dropWhile_lt_eq_filter (h.sorted runId), h.recent runId now hnow, admittedTimes,
    List.filter_map, List.length_map, List.filter_filter, ← List.countP_eq_length_filter]
  refine List.countP_congr (fun call hcall => ?_)
  have hpast := h.past call hcall
  simp only [Function.comp_apply, Bool.and_eq_true, decide_eq_true_eq]
  constructor
  · rintro ⟨hrecent, hrun, hadmitted⟩
    exact ⟨hrun, hadmitted, hrecent, by omega⟩
  · rintro ⟨hrun, hadmitted, hrecent, _⟩
    exact ⟨hrecent, hrun, hadmitted⟩

theorem ask_eq (h : Represents w) {now : Int} (hnow : w.clock ≤ now) (call : AdmissionCall) :
    w.ask now call = .ok (call.verdict (w.admittedWithin call.action.runId now)) := by
  rw [AdmissionRun.ask, AdmissionRun.evaluate_eq, AdmissionCall.verdict]
  cases call.earlyDenial with
  | some result => rfl
  | none =>
    simp only [checkRateLimit, h.length_window call.action.runId hnow, ge_iff_le]
    by_cases hquota : call.policy.maxActionsPerMinute ≤ w.admittedWithin call.action.runId now
    · simp only [hquota, if_true, deny]
      rfl
    · simp only [hquota, if_false]
      rfl

theorem start (clock : Int) : Represents { clock := clock } where
  sorted _ := List.Pairwise.nil
  windowPast _ _ ht := absurd ht List.not_mem_nil
  past _ hcall := absurd hcall List.not_mem_nil
  recent _ _ _ := rfl

end Represents

/-- An early denial is a denial. -/
theorem AdmissionCall.admitted_of_earlyDenial {call : AdmissionCall} {result : AdmissionResult}
    (h : call.earlyDenial = some result) : result.admitted = false := by
  have hpermission : ∀ r, checkPermissionMode call.action call.snapshot = some r →
      r.admitted = false := by
    intro r hr
    unfold checkPermissionMode deny at hr
    split at hr
    · split at hr
      · split at hr
        · cases hr
        · obtain rfl := Option.some.inj hr
          rfl
      · obtain rfl := Option.some.inj hr
        rfl
    · cases hr
  have hrisk : ∀ r, checkRiskTier call.action call.policy = some r → r.admitted = false := by
    intro r hr
    unfold checkRiskTier deny at hr
    split at hr
    · obtain rfl := Option.some.inj hr
      rfl
    · cases hr
  rw [AdmissionCall.earlyDenial, checkBindingExistence_none, checkIdempotency_none, Option.none_or,
    Option.none_or, Option.or_eq_some_iff] at h
  rcases h with hmode | ⟨_, htier⟩
  · exact hpermission result hmode
  · exact hrisk result htier

theorem admittedTimes_append (runId : String) (history : List AnsweredCall) (call : AnsweredCall) :
    admittedTimes runId (history ++ [call]) =
      admittedTimes runId history ++
        if call.runId = runId ∧ call.result.admitted then [call.askedAt] else [] := by
  rw [admittedTimes, List.filter_append, List.map_append, admittedTimes, List.filter_singleton]
  by_cases hcounts : call.runId = runId ∧ call.result.admitted <;> simp [hcounts]

/-- What has expired at one time has expired at a later one. -/
theorem filter_recent (l : List Int) {now later : Int} (h : now ≤ later) :
    (l.filter (fun t => now - sixtySeconds ≤ t)).filter (fun t => later - sixtySeconds ≤ t) =
      l.filter (fun t => later - sixtySeconds ≤ t) := by
  rw [List.filter_filter]
  refine List.filter_congr (fun t _ => ?_)
  rw [Bool.and_eq_left_iff_imp]
  simp only [decide_eq_true_eq]
  omega

namespace Represents
variable {w : AdmissionRun}

/-- A denial that comes before the rate limit leaves the windows alone. -/
theorem denied (h : Represents w) {now : Int} (hnow : w.clock ≤ now) (runId : String)
    {result : AdmissionResult} (hdenied : result.admitted = false) :
    Represents
      { windows := w.windows, clock := now, history := w.history ++ [⟨runId, now, result⟩] } where
  sorted := h.sorted
  windowPast r t ht := le_trans (h.windowPast r t ht) hnow
  past call hcall := by
    rcases List.mem_append.mp hcall with hold | hnew
    · exact le_trans (h.past call hold) hnow
    · exact le_of_eq (congrArg AnsweredCall.askedAt (List.mem_singleton.mp hnew))
  recent r later hlater := by
    rw [admittedTimes_append, if_neg (by simp [hdenied]), List.append_nil]
    exact h.recent r later (le_trans hnow hlater)

/-- The rate limit evicts what has expired and adds the admission. -/
theorem limited (h : Represents w) {now : Int} (hnow : w.clock ≤ now) (runId : String)
    (result : AdmissionResult) :
    Represents
      { windows := w.windows.set runId
          ((((w.windows.get? runId).getD []).dropWhile (fun t => t < now - sixtySeconds)) ++
            if result.admitted then [now] else [])
        clock := now
        history := w.history ++ [⟨runId, now, result⟩] } := by
  have hevicted := dropWhile_lt_eq_filter (h.sorted runId) (now - sixtySeconds)
  have hpast : ∀ t ∈ ((w.windows.get? runId).getD []).filter (fun t => now - sixtySeconds ≤ t),
      t ≤ now := fun t ht => le_trans (h.windowPast runId t (List.mem_of_mem_filter ht)) hnow
  rw [hevicted]
  constructor
  · intro r
    dsimp only
    rw [Dict.get?_set]
    by_cases hr : r = runId
    · rw [if_pos hr, Option.getD_some]
      refine List.pairwise_append.mpr ⟨(h.sorted runId).filter _, by split <;> simp, ?_⟩
      intro t ht later hlater
      split at hlater
      · rw [List.mem_singleton.mp hlater]
        exact hpast t ht
      · cases hlater
    · rw [if_neg hr]
      exact h.sorted r
  · intro r t ht
    dsimp only at ht ⊢
    rw [Dict.get?_set] at ht
    by_cases hr : r = runId
    · rw [if_pos hr, Option.getD_some] at ht
      rcases List.mem_append.mp ht with hold | hnew
      · exact hpast t hold
      · split at hnew
        · exact le_of_eq (List.mem_singleton.mp hnew)
        · cases hnew
    · rw [if_neg hr] at ht
      exact le_trans (h.windowPast r t ht) hnow
  · intro call hcall
    rcases List.mem_append.mp hcall with hold | hnew
    · exact le_trans (h.past call hold) hnow
    · exact le_of_eq (congrArg AnsweredCall.askedAt (List.mem_singleton.mp hnew))
  · intro r later hlater
    dsimp only at hlater ⊢
    rw [Dict.get?_set, admittedTimes_append, List.filter_append (admittedTimes r w.history)]
    by_cases hr : r = runId
    · subst hr
      rw [if_pos rfl, Option.getD_some, List.filter_append, filter_recent _ hlater,
        h.recent r later (le_trans hnow hlater)]
      simp
    · rw [if_neg hr, if_neg (fun hcounts => hr hcounts.1.symm), List.filter_nil, List.append_nil]
      exact h.recent r later (le_trans hnow hlater)

/-- **Step.** -/
theorem next (h : Represents w) (call : AdmissionCall) : Represents (w.next call) := by
  have hnow : w.clock ≤ w.clock + call.elapsed := by omega
  rw [AdmissionRun.next, AdmissionRun.evaluate_eq]
  cases hearly : call.earlyDenial with
  | some result => exact h.denied hnow call.action.runId (call.admitted_of_earlyDenial hearly)
  | none =>
    simp only [checkRateLimit, h.length_window call.action.runId hnow, ge_iff_le]
    by_cases hquota : call.policy.maxActionsPerMinute ≤
        w.admittedWithin call.action.runId (w.clock + call.elapsed)
    · have hdenied := h.limited hnow call.action.runId ⟨false, .quotaExceeded⟩
      simpa [hquota, deny] using hdenied
    · have hadmitted := h.limited hnow call.action.runId ⟨true, .ok⟩
      simpa [hquota] using hadmitted

theorem run (clock : Int) (calls : List AdmissionCall) :
    Represents (Lib.run AdmissionRun.next { clock := clock } calls) :=
  run_invariant (I := Represents) (fun _ call h => h.next call) (start clock) calls

end Represents

/-! ### The law over all calls -/

/-- What a call adds to the history, and that nothing else changes what counts later. -/
theorem Represents.history_next {w : AdmissionRun} (h : Represents w) (call : AdmissionCall) :
    (w.next call).clock = w.clock + call.elapsed ∧
      ∃ result, w.ask (w.clock + call.elapsed) call = .ok result ∧
        (w.next call).history =
          w.history ++ [⟨call.action.runId, w.clock + call.elapsed, result⟩] := by
  have hask := h.ask_eq (show w.clock ≤ w.clock + call.elapsed by omega) call
  rw [AdmissionRun.next]
  cases hanswer : w.evaluate (w.clock + call.elapsed) call with
  | error e =>
    rw [AdmissionRun.ask, hanswer] at hask
    cases hask
  | ok answer =>
    refine ⟨rfl, answer.1, ?_, rfl⟩
    rw [AdmissionRun.ask, hanswer]
    rfl

/-- A call that is denied, or of another run, does not count. -/
theorem Represents.admittedWithin_next {w : AdmissionRun} (h : Represents w) {call : AdmissionCall}
    {result : AdmissionResult} (hask : w.ask (w.clock + call.elapsed) call = .ok result)
    {runId : String} (hcounts : result.admitted = false ∨ runId ≠ call.action.runId) (now : Int) :
    (w.next call).admittedWithin runId now = w.admittedWithin runId now := by
  obtain ⟨_, answer, hanswer, hhistory⟩ := h.history_next call
  obtain rfl : result = answer := Except.ok.inj (hask.symm.trans hanswer)
  rw [AdmissionRun.admittedWithin, AdmissionRun.admittedWithin, hhistory, List.countP_append,
    Nat.add_eq_left, List.countP_singleton, ite_eq_right_iff]
  simp only [Bool.decide_and, Bool.and_eq_true, decide_eq_true_eq]
  rintro ⟨hrun, hadmitted, _⟩
  rcases hcounts with hdenied | hother
  · rw [hdenied] at hadmitted
    cases hadmitted
  · exact absurd hrun.symm hother

theorem Represents.ask_next {w : AdmissionRun} (h : Represents w) {call : AdmissionCall}
    {result : AdmissionResult} (hask : w.ask (w.clock + call.elapsed) call = .ok result)
    {later : AdmissionCall}
    (hcounts : result.admitted = false ∨ later.action.runId ≠ call.action.runId) {now : Int}
    (hnow : w.clock + call.elapsed ≤ now) : (w.next call).ask now later = w.ask now later := by
  have hclock : (w.next call).clock ≤ now := by
    rw [(h.history_next call).1]
    exact hnow
  rw [(h.next call).ask_eq hclock, h.ask_eq (by omega), h.admittedWithin_next hask hcounts]

/-- Past the other rules, the verdict is the quota's. -/
theorem AdmissionCall.verdict_quota_iff {call : AdmissionCall} (h : call.earlyDenial = none)
    (admitted : Nat) :
    call.verdict admitted = ⟨false, .quotaExceeded⟩ ↔
      call.policy.maxActionsPerMinute ≤ admitted := by
  rw [AdmissionCall.verdict, h]
  dsimp only
  split
  case isTrue hquota => exact iff_of_true rfl hquota
  case isFalse hquota => exact iff_of_false (fun hok => nomatch hok) hquota

/-- **The rate limit law.** After any calls, whatever their runs, actions, snapshots and policies,
the next call is answered by the admissions of its run in the last sixty seconds; a denied call and
one of another run change no later answer. -/
theorem rate_limit_law (clock : Int) (calls : List AdmissionCall) (call : AdmissionCall) :
    RateLimitLaw (run AdmissionRun.next { clock := clock } calls) call := by
  have h := Represents.run clock calls
  generalize run AdmissionRun.next { clock := clock } calls = w at h
  have hask := h.ask_eq (show w.clock ≤ w.clock + call.elapsed by omega) call
  constructor
  · exact hask
  · intro hearly
    rw [hask, Except.ok.injEq]
    exact call.verdict_quota_iff hearly _
  · intro result hresult hdenied later now hnow
    exact h.ask_next hresult (.inl hdenied) hnow
  · intro later now hother hnow
    exact h.ask_next hask (.inr hother) hnow

end AgentKernel.Capabilities
